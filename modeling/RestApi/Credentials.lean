import RestApi.RowChanges

namespace RestApi.Credentials
open Pool Program RowStore

-- Whether this version differs in password hash or deletion from the one it replaces.
def rewritten (seen : List Row) (new : UserRow) : Bool := seen.any fun
  | .user old =>
      old.user.id = new.user.id &&
        (old.user.password ≠ new.user.password || old.deletedAt ≠ new.deletedAt)
  | _ => false

-- The users whose credentials a transaction changes.
def recredentialed (t : Tx Row Key) : List UUID := t.writes.filterMap fun
  | .user new => if rewritten t.seen new then some new.user.id else none
  | _ => none

-- The users a transaction inserts a session for.
def loggedIn (t : Tx Row Key) : List UUID := t.writes.filterMap fun
  | .session sess => if t.holds schema (.session sess.id) then none else some sess.userID
  | _ => none

-- Login checks the password long before it inserts, and the bulk revocation does
-- not see what commits after its snapshot. A commit is calm if no change of its
-- user's credentials fell into the first gap and no login into the second.
def Calm (events : List Event) (t : Tx Row Key) (older : List (Entry Row Key)) : Prop :=
  (∀ userID ∈ loggedIn t, ∀ position ∈ reads events, ∀ entry ∈ recent older position,
    userID ∉ recredentialed entry.tx) ∧
    ∀ userID ∈ recredentialed t, ∀ revoking ∈ t.done.head?.toList,
    ∀ entry ∈ recent older revoking.start, userID ∉ loggedIn entry.tx

instance (events : List Event) (t : Tx Row Key) (older : List (Entry Row Key)) :
    Decidable (Calm events t older) :=
  inferInstanceAs (Decidable (_ ∧ _))

def calmly (s : Api) : Act Request Choice Surroundings → Prop
  | .step pid _ =>
      ∀ t ∈ (committing s pid).toList, Calm (own s.shared.journal pid) t s.shared.db.log
  | _ => True

instance : ∀ s act, Decidable (calmly s act)
  | _,.step _ _ => inferInstanceAs (Decidable (∀ t ∈ _, _))
  | _,.spawn _ _ => inferInstanceAs (Decidable True)
  | _,.kill _ => inferInstanceAs (Decidable True)
  | _,.env _ => inferInstanceAs (Decidable True)

-- A committed login inserted this session after it had checked its password
-- against this hash of this user.
def VerifiedLogin (cfg : Config) (w : World) (log : List (Entry Row Key)) (sessID userID : UUID)
    (hash : String) : Prop :=
  ∃ entry ∈ log, ∃ ctx address password position usr sess,
    w.requests entry.owner = some (.login ctx address password) ∧
    .session sess ∈ entry.tx.writes ∧ sess.id = sessID ∧
    ¬entry.tx.holds schema (.session sessID) ∧
    (entry.owner,.selected position [.user ⟨usr,none⟩]) ∈ w.journal ∧ usr.id = userID ∧
    usr.password = hash ∧ cfg.compareHashAndPassword hash password = true

section Steps
variable {cfg : Config} {request : Request} {events : List Event} {t : Tx Row Key} {base : List Row}
  {older : List (Entry Row Key)} {entry : Entry Row Key}

theorem mem_loggedIn (wrote : .session sess ∈ t.writes)
    (unlocked : t.locked = []) : sess.userID ∈ loggedIn t :=
  List.mem_filterMap.mpr ⟨_,wrote,by simp [unlocked_holds unlocked]⟩

theorem recredentialed_unlocked (unlocked : t.locked = []) : userID ∉ recredentialed t := by
  intro member
  obtain ⟨row,_,changed⟩ := List.mem_filterMap.mp member
  cases row with
  | user new => simp [rewritten,Tx.seen,unlocked] at changed
  | _ => cases changed

theorem mem_recredentialed {old new : UserRow} (wrote : .user new ∈ t.writes)
    (seen : .user old ∈ t.seen) (same : new.user.id = old.user.id)
    (changed : ¬(new.user.password = old.user.password ∧ new.deletedAt = old.deletedAt)) :
    old.user.id ∈ recredentialed t := by
  have differs : rewritten t.seen new = true := by
    refine List.any_eq_true.mpr ⟨_,seen,?_⟩
    by_cases password : old.user.password = new.user.password
    · have deleted : old.deletedAt ≠ new.deletedAt :=
        fun deleted => changed ⟨password.symm,deleted.symm⟩
      simp [same,deleted]
    · simp [same,password]
  exact List.mem_filterMap.mpr ⟨_,wrote,by simp [differs,same]⟩

-- Either the credential survives a commit as it is, or the commit sweeps.
theorem credential_step (fits : Fits schema base older entry.tx)
    (keyed : schema.Keyed (schema.rows base older)) (commits : Commits cfg request entry.tx events)
    (member : .user old ∈ schema.rows base older) :
    ∃ new, .user new ∈ schema.rows base (entry :: older) ∧ new.user.id = old.user.id ∧
      (new.user.password = old.user.password ∧ new.deletedAt = old.deletedAt ∨
        old.user.id ∈ recredentialed entry.tx ∧
          ∃ revoking, Sweeps entry.tx old.user.id revoking) := by
  obtain ⟨new,there,rfl | ⟨wrote,seen,same,step⟩⟩ := user_persists fits keyed commits member
  · exact ⟨new,there,rfl,.inl ⟨rfl,rfl⟩⟩
  · refine ⟨new,there,same,?_⟩
    by_cases kept : new.user.password = old.user.password ∧ new.deletedAt = old.deletedAt
    · exact .inl kept
    · exact .inr ⟨mem_recredentialed wrote seen same kept,step.resolve_left kept⟩

end Steps

section Runs
variable {cfg : Config} {w : World} {Met : List Event → Tx Row Key → List (Entry Row Key) → Prop}

-- A credential nobody has changed since is still in force.
theorem credential_kept (keyed : schema.Keyed w.db.base) (apart : schema.Apart w.db.base)
    (history : History cfg w Met log) (past : n ≤ log.length)
    (found : .user old ∈ schema.rowsAt w.db.base log n)
    (untouched : ∀ entry ∈ recent log n, old.user.id ∉ recredentialed entry.tx) :
    ∃ new, .user new ∈ schema.rows w.db.base log ∧ new.user.id = old.user.id ∧
      new.user.password = old.user.password ∧ new.deletedAt = old.deletedAt := by
  induction history with
  | start => exact ⟨old,by simpa [Schema.rowsAt] using found,rfl,rfl,rfl⟩
  | @commit older entry request events before made ih =>
      rcases Nat.lt_or_eq_of_le past with longer | rfl
      · have early : n ≤ older.length := Nat.le_of_lt_succ longer
        rw [Schema.rowsAt_cons early] at found
        rw [recent_cons early] at untouched
        obtain ⟨middle,there,same,password,deleted⟩ :=
          ih early found fun e member => untouched e (List.mem_cons_of_mem _ member)
        obtain ⟨new,newer,also,kept | ⟨changed,_⟩⟩ :=
          credential_step made.fits (before.chronicle keyed apart).keyed made.commits there
        · exact ⟨new,newer,also.trans same,kept.1.trans password,kept.2.trans deleted⟩
        · exact absurd (same ▸ changed) (untouched entry List.mem_cons_self)
      · rw [Schema.rowsAt_length] at found
        exact ⟨old,found,rfl,rfl,rfl⟩

-- What the services promise of every session that is still alive.
def Backed (cfg : Config) (w : World) (log : List (Entry Row Key)) : Prop :=
  ∀ sess, .session sess ∈ schema.rows w.db.base log → sess.revokedAt = none →
    ∃ usr, .user usr ∈ schema.rows w.db.base log ∧ usr.user.id = sess.userID ∧
      usr.deletedAt = none ∧ VerifiedLogin cfg w log sess.id usr.user.id usr.user.password

variable {older : List (Entry Row Key)} {entry : Entry Row Key} {request : Request}
  {events : List Event}

theorem commit_backed (keyed : schema.Keyed w.db.base) (apart : schema.Apart w.db.base)
    (before : History cfg w Calm older) (made : Made cfg w Calm older entry request events)
    (backed : Backed cfg w older) : Backed cfg w (entry :: older) := by
  have unique := (before.chronicle keyed apart).keyed
  intro sess member unrevoked
  rcases session_step made.fits made.commits member with ⟨old,there,step⟩ |
    ⟨_,wrote,unlocked,ctx,address,password,usr,asked,created⟩
  · obtain ⟨id,owner,_,alive⟩ := step.same
    obtain ⟨usr,present,owns,live,login,logged,verified⟩ := backed old there (alive unrevoked)
    obtain ⟨new,newer,same,kept | ⟨changed,revoking,sweeps⟩⟩ :=
      credential_step made.fits unique made.commits present
    · rw [← owner] at owns
      refine ⟨new,newer,same.trans owns,kept.2.trans live,?_⟩
      rw [id,same,kept.1]
      exact ⟨login,List.mem_cons_of_mem _ logged,verified⟩
    · have quiet := made.met.2 _ changed revoking (by simp [sweeps.last])
      have active : activeSessionOf usr.user.id (.session old) = true := by
        simp [activeSessionOf,owns,alive unrevoked]
      exact absurd unrevoked (swept_dead before made.fits unique sweeps
        (fun login recently unlocked new wrote owner => quiet login recently
        (owner ▸ mem_loggedIn wrote unlocked)) there active member id)
  · obtain ⟨position,found⟩ := created.found
    obtain ⟨past,snapshot⟩ := made.selects position _ found
    have quiet := made.met.1 _ (mem_loggedIn wrote unlocked) position (mem_reads found)
    rw [created.owner] at quiet
    obtain ⟨old,there,same,hash,deleted⟩ :=
      credential_kept keyed apart before past (snapshot _ List.mem_cons_self) quiet
    obtain ⟨new,newer,also,kept | ⟨changed,_⟩⟩ :=
      credential_step made.fits unique made.commits there
    · refine ⟨new,newer,?_,kept.2.trans deleted,entry,List.mem_cons_self,ctx,address,password,
        position,usr,sess,?_⟩
      · exact also.trans (same.trans created.owner.symm)
      · rw [also,same,kept.1,hash]
        exact ⟨asked ▸ made.asked,wrote,rfl,unlocked_holds unlocked,mem_own.mp (made.known found),
          rfl,rfl,created.verified⟩
    · exact absurd changed (recredentialed_unlocked unlocked)

theorem history_backed (keyed : schema.Keyed w.db.base) (apart : schema.Apart w.db.base)
    (ended : ∀ sess, .session sess ∈ w.db.base → sess.revokedAt ≠ none)
    (history : History cfg w Calm log) : Backed cfg w log := by
  induction history with
  | start => exact fun sess member unrevoked => absurd unrevoked (ended sess member)
  | commit before made ih => exact commit_backed keyed apart before made ih

-- No session outlives the credential it was opened with.
theorem credential_leaves_no_session {base : List Row} {s : Api} (keyed : schema.Keyed base)
    (apart : schema.Apart base) (ended : ∀ sess, .session sess ∈ base → sess.revokedAt ≠ none)
    (path : Reached (api cfg) calmly (boot base serial uuids now) s)
    (user : .user usr ∈ s.shared.committed) (session : .session sess ∈ s.shared.committed)
    (owner : sess.userID = usr.user.id) (unrevoked : sess.revokedAt = none) :
    usr.deletedAt = none ∧
    VerifiedLogin cfg s.shared s.shared.db.log sess.id usr.user.id usr.user.password := by
  have origin : s.shared.db.base = base := (reached_grows path).base
  have history := reached_history keyed apart
    (fun _ _ _ t allowed running => allowed t (by simp [running])) path
  have chronicle := history.chronicle (origin ▸ keyed) (origin ▸ apart)
  obtain ⟨usr',present,owns,live,verified⟩ :=
    history_backed (origin ▸ keyed) (origin ▸ apart) (origin ▸ ended) history sess session unrevoked
  cases chronicle.keyed _ present _ user (congrArg Key.user (owns.trans owner))
  exact ⟨live,verified⟩

end Runs

namespace Controls
open RestApi.Controls

def login (pid : Pid) (password sessID token : String) : Schedule :=
  [.spawn pid (.login asAnn "a@x" password),.step pid .runs,.step pid (.value sessID),
    .step pid (.value token),.step pid .runs,.step pid .runs,.step pid .runs]

def stored (pid : Pid) : Schedule :=
  [.step pid .runs,.step pid .runs,.step pid .runs,.step pid .runs]

def changed (pid : Pid) (sessions : List Key) : Schedule :=
  [.spawn pid (.changePassword asAnn "u1" "old" "new"),.step pid .runs,.step pid (.value "$new"),
    .step pid .runs,.step pid (.plan [.user "u1"]),.step pid .next,.step pid .runs,
    .step pid (.plan sessions)] ++ sessions.map (fun _ => .step pid .next) ++
    [.step pid .runs,.step pid .runs,.step pid .runs]

def session (sessID token : String) : Session :=
  ⟨sessID,"u1","#rt_" ++ token,"ip","agent",1000*second,1000*second,4600*second,none⟩

def unread : Event → Bool
  | .selected _ rows => rows.all fun
      | .user row => row.user.password ≠ "$new"
      | _ => true
  | _ => true

-- A login that checked the old password stores its session after the change.
theorem stale_login_survives : ∃ s, Reached (api config) (fun _ _ => True) init s ∧
    .user renewed ∈ s.shared.committed ∧ .session (session "s1" "t1") ∈ s.shared.committed ∧
    ¬VerifiedLogin config s.shared s.shared.db.log "s1" "u1" "$new" := by
  obtain ⟨s,path,user,session,never⟩ := run_finds (api config) (fun _ _ => True) init
    (login 0 "old" "s1" "t1" ++ changed 1 [] ++ stored 0)
    (fun s => .user renewed ∈ s.shared.committed ∧
      .session (session "s1" "t1") ∈ s.shared.committed ∧
      ∀ note ∈ s.shared.journal, unread note.2 = true) (by decide +kernel)
  refine ⟨s,path,user,session,?_⟩
  rintro ⟨entry,_,_,_,_,_,usr,_,_,_,_,_,selected,_,hash,_⟩
  have differs := never _ selected
  simp [unread,hash] at differs

-- Login, a password change that ends its session, login with the new password.
theorem credential_leaves_no_session_relogin : ∃ s, Reached (api config) calmly init s ∧
    .session (session "s2" "t2") ∈ s.shared.committed ∧
    VerifiedLogin config s.shared s.shared.db.log "s2" "u1" "$new" := by
  obtain ⟨s,path,user,there⟩ := run_finds (api config) calmly init
    (login 0 "old" "s1" "t1" ++ stored 0 ++ changed 1 [.session "s1"] ++ login 2 "new" "s2" "t2" ++
      stored 2)
    (fun s => .user renewed ∈ s.shared.committed ∧
      .session (session "s2" "t2") ∈ s.shared.committed) (by decide +kernel)
  refine ⟨s,path,there,(credential_leaves_no_session ?_ ?_ ?_ path user there rfl rfl).2⟩
  · simp [Schema.Keyed]
  · simp [Schema.Apart]
  · simp

end Controls
end RestApi.Credentials
