import RestApi.RowChanges

namespace RestApi.Audited
open Pool Program RowStore

-- The action an audited request is recorded under.
def action : Request → Option Action
  | .register _ _ _ => some .register
  | .completeRegistration _ _ _ => some .completeRegistration
  | .login _ _ _ => some .login
  | .refreshAccessToken _ _ => none
  | .logout _ _ => some .logout
  | .recoverPassword _ _ => some .recoverPassword
  | .resetPassword _ _ _ => some .resetPassword
  | .changePassword _ _ _ _ => some .changePassword
  | .revokeUserSessions _ _ => some .revokeUserSessions
  | .revokeSession _ _ => some .revokeSession
  | .updateUser _ _ _ _ _ => some .userUpdate
  | .deleteUser _ _ => some .userDelete
  | .changeProfilePicture _ _ _ => some .changeProfilePicture
  | .deleteProfilePicture _ _ => some .deleteProfilePicture
  | .authenticate _ => none

def audit? : Row → Option AuditEntry
  | .audit entry => some entry
  | _ => none

-- Which entity a request affects, read off the rows it writes.
inductive Affects (rows : List Row) : Request → String → String → Prop where
  | register (stored : .registration token ∈ rows)
      (outstanding : token.usedAt = none ∧ token.revokedAt = none) (invited : token.email = email) :
      Affects rows (.register ctx name email) "registration_token" (toString token.id)
  | completeRegistration (stored : .user row ∈ rows) (same : row.user.id = userID) :
      Affects rows (.completeRegistration ctx text password) "user" userID
  | login (stored : .session sess ∈ rows) (owner : sess.userID = userID) :
      Affects rows (.login ctx email password) "user" userID
  | logout (stored : .session sess ∈ rows) (same : sess.id = sessID) (owner : sess.userID = userID)
      : Affects rows (.logout ctx sessID) "user" userID
  | recoverPassword (stored : .recovery token ∈ rows) (owner : token.userID = userID) :
      Affects rows (.recoverPassword ctx email) "user" userID
  | resetPassword (stored : .user row ∈ rows) (same : row.user.id = userID) :
      Affects rows (.resetPassword ctx text password) "user" userID
  | changePassword (stored : .user row ∈ rows) (same : row.user.id = userID) :
      Affects rows (.changePassword ctx userID password newPassword) "user" userID
  | revokeUserSessions (only : ∀ row ∈ rows, ∃ sess, row = .session sess ∧ sess.userID = userID) :
      Affects rows (.revokeUserSessions ctx userID) "user" userID
  | revokeSession (stored : .session sess ∈ rows) (same : sess.id = sessID) :
      Affects rows (.revokeSession ctx sessID) "session" sessID
  | updateUser (stored : .user row ∈ rows) (same : row.user.id = userID) :
      Affects rows (.updateUser ctx userID name phone gender) "user" userID
  | deleteUser (stored : .user row ∈ rows) (same : row.user.id = userID)
      (deleted : row.deletedAt ≠ none) : Affects rows (.deleteUser ctx userID) "user" userID
  | changeProfilePicture (stored : .user row ∈ rows) (same : row.user.id = userID) :
      Affects rows (.changeProfilePicture ctx userID ext) "user" userID
  | deleteProfilePicture (stored : .user row ∈ rows) (same : row.user.id = userID) :
      Affects rows (.deleteProfilePicture ctx userID) "user" userID

section Commits
variable {cfg : Config} {request : Request} {t : Tx Row Key} {events : List Event}

-- The rows an audited commit writes: nothing, or one record and no other.
structure Recorded (request : Request) (t : Tx Row Key) (entry : AuditEntry)
    (rows : List Row) : Prop where
  writes : t.writes = .audit entry :: rows
  single : ∀ other, .audit other ∉ rows
  named : action request = some entry.action
  affects : Affects rows request entry.entity entry.entityID
  unheld : ¬t.holds schema (.audit entry.id)

-- The record is what stands at the head of the writes.
theorem Recorded.heads {record entry : AuditEntry} {rows others : List Row}
    (recorded : Recorded request t record rows) (writes : t.writes = .audit entry :: others) :
    record = entry := by
  have same := recorded.writes.symm.trans writes
  exact Row.audit.inj (List.cons.inj same).1

theorem revoked_records {hits : List Row} {userID : UUID}
    (passes : ∀ row ∈ hits, activeSessionOf userID row = true ∧ row ∈ t.seen) (other : AuditEntry) :
    .audit other ∉ hits.map (revokeRow t.began) := by
  intro swept
  obtain ⟨_,_,same⟩ := revoked_row swept passes
  cases same

theorem commits_recorded (commits : Commits cfg request t events)
    (audited : action request ≠ none) :
    t.writes = [] ∨ ∃ entry rows, Recorded request t entry rows := by
  cases commits with
  | register _ _ _ revoked _ _ unheld writes =>
      refine .inr ⟨_,_,writes,fun other member => ?_,rfl,.register List.mem_cons_self ⟨rfl,rfl⟩ rfl,
        unheld⟩
      simp only [List.mem_cons,reduceCtorEq,false_or] at member
      obtain ⟨_,_,_,same⟩ := superseded_row member revoked.hits
      cases same
  | completeRegistration _ _ _ _ _ user _ unheld writes =>
      subst user
      exact .inr ⟨_,_,writes,by simp,rfl,.completeRegistration List.mem_cons_self rfl,unheld⟩
  | login _ _ _ _ _ _ unheld writes =>
      exact .inr ⟨_,_,writes,by simp,rfl,.login List.mem_cons_self rfl,unheld⟩
  | refreshAccessToken => exact absurd rfl audited
  | logoutDead _ _ _ writes => exact .inl writes
  | logout _ same unheld writes =>
      exact .inr ⟨_,_,writes,by simp,rfl,.logout List.mem_cons_self same rfl,unheld⟩
  | revokeSessionDead _ _ _ _ writes => exact .inl writes
  | revokeSession _ same _ unheld writes =>
      exact .inr ⟨_,_,writes,by simp,rfl,.revokeSession List.mem_cons_self same,unheld⟩
  | recoverPassword _ _ _ _ unheld writes =>
      exact .inr ⟨_,_,writes,by simp,rfl,.recoverPassword List.mem_cons_self rfl,unheld⟩
  | resetPassword _ _ _ _ _ _ _ _ _ _ _ revoked _ unheld writes =>
      refine .inr ⟨_,_,writes,fun other member => ?_,rfl,
        .resetPassword (List.mem_append_right _ List.mem_cons_self) rfl,unheld⟩
      simp only [List.mem_append,List.mem_cons,reduceCtorEq,List.not_mem_nil,or_false] at member
      exact revoked_records revoked.hits other member
  | changePassword _ _ _ _ _ _ _ target revoked _ unheld writes =>
      refine .inr ⟨_,_,writes,fun other member => ?_,rfl,
        .changePassword (List.mem_append_right _ List.mem_cons_self) target,unheld⟩
      simp only [List.mem_append,List.mem_cons,rewriteUser,reduceCtorEq,List.not_mem_nil,or_false]
        at member
      exact revoked_records revoked.hits other member
  | revokeUserSessions _ revoked unheld writes =>
      refine .inr ⟨_,_,writes,revoked_records revoked.hits,rfl,.revokeUserSessions fun row member =>
        ?_,unheld⟩
      obtain ⟨hit,found,rfl⟩ := List.mem_map.mp member
      obtain ⟨passes,_⟩ := revoked.hits hit found
      cases hit with
      | session old =>
          simp only [activeSessionOf,Bool.and_eq_true,decide_eq_true_eq] at passes
          exact ⟨_,rfl,passes.1⟩
      | _ => cases passes
  | updateUser _ _ same changed _ unheld writes =>
      subst changed
      exact .inr ⟨_,_,writes,by simp,rfl,.updateUser List.mem_cons_self same,unheld⟩
  | deleteAbsent _ _ _ writes => exact .inl writes
  | deleteUser _ _ same revoked _ unheld writes =>
      refine .inr ⟨_,_,writes,fun other member => ?_,rfl,
        .deleteUser (List.mem_append_right _ List.mem_cons_self) same (Option.some_ne_none _),
        unheld⟩
      simp only [List.mem_append,List.mem_cons,reduceCtorEq,List.not_mem_nil,or_false] at member
      exact revoked_records revoked.hits other member
  | changeProfilePicture _ _ same _ _ changed unheld writes =>
      subst changed
      exact .inr ⟨_,_,writes,by simp,rfl,.changeProfilePicture List.mem_cons_self same,unheld⟩
  | keepNoPicture _ _ _ _ writes => exact .inl writes
  | deleteProfilePicture _ _ same _ changed unheld writes =>
      subst changed
      exact .inr ⟨_,_,writes,by simp,rfl,.deleteProfilePicture List.mem_cons_self same,unheld⟩

theorem audit_recorded (commits : Commits cfg request t events) (wrote : .audit entry ∈ t.writes) :
    ∃ rows, Recorded request t entry rows := by
  by_cases audited : action request = none
  · cases commits with
    | refreshAccessToken _ _ _ _ _ _ _ writes => simp [writes] at wrote
    | _ => cases audited
  · rcases commits_recorded commits audited with nothing | ⟨record,rows,recorded⟩
    · rw [nothing] at wrote
      cases wrote
    · rw [recorded.writes] at wrote
      rcases List.mem_cons.mp wrote with same | elsewhere
      · cases same
        exact ⟨rows,recorded⟩
      · exact absurd elsewhere (recorded.single entry)

theorem audit_unheld (commits : Commits cfg request t events) (wrote : .audit entry ∈ t.writes) :
    ¬t.holds schema (.audit entry.id) := by
  obtain ⟨_,recorded⟩ := audit_recorded commits wrote
  exact recorded.unheld

end Commits

def Audits (rows : List Row) : List AuditEntry := rows.filterMap audit?

-- A key under which a revocation is marked.
def Revocation (key : String) : Prop :=
  (∃ userID, key = revokedUserKey userID) ∨ ∃ sessionID, key = revokedSessionKey sessionID

theorem throttle_not_revocation (email : String) :
    ¬Revocation ("throttle:" ++ ("recover-password:" ++ email)) := by
  rintro (⟨userID,same⟩ | ⟨sessionID,same⟩)
  · exact throttle_not_user _ userID same
  · exact throttle_not_session _ sessionID same

theorem audits_overlay {rows writes : List Row}
    (fresh : ∀ entry, .audit entry ∈ writes → .audit entry.id ∉ schema.keys rows) :
    Audits (schema.overlay rows writes) = Audits writes ++ Audits rows := by
  rw [Audits,Schema.overlay,List.filterMap_append]
  congr 1
  rw [List.filterMap_filter]
  refine List.filterMap_congr fun row member => ?_
  cases row with
  | audit old =>
      have kept : schema.key (.audit old) ∉ schema.keys writes := by
        intro written
        obtain ⟨newer,wrote,same⟩ := Schema.mem_keys.mp written
        cases newer with
        | audit entry => exact fresh entry wrote (Schema.mem_keys.mpr ⟨_,member,same.symm⟩)
        | _ => cases same
      simp [kept]
  | _ => simp [audit?]

theorem Recorded.audits (recorded : Recorded request t entry rows) : Audits t.writes = [entry] := by
  have others : Audits rows = [] := by
    rw [Audits,List.filterMap_eq_nil_iff]
    intro row member
    cases row with
    | audit other => exact absurd member (recorded.single other)
    | _ => rfl
  rw [recorded.writes,Audits,List.filterMap_cons]
  exact congrArg (entry :: ·) others

-- Audit records are only ever added.
theorem audits_committed {base : List Row} {older : List (Entry Row Key)} {t : Tx Row Key}
    (fits : Fits schema base older t) (commits : Commits cfg request t events) :
    Audits (schema.overlay (schema.rows base older) t.writes) = Audits t.writes ++
      Audits (schema.rows base older) :=
  audits_overlay fun entry wrote => (fits.owned (.audit entry) wrote).resolve_left
    (audit_unheld commits wrote)

-- One commit: the first of its goroutine, with everything its request owes, and
-- one more audit record if the request is an audited one.
structure Complete (cfg : Config) (s next : Api) (pid : Pid) (request : Request)
    (t : Tx Row Key) : Prop where
  asked : s.shared.requests pid = some request
  first : pid ∉ s.shared.db.log.map Entry.owner
  running : s.shared.db.txs pid = some t
  effect : Commits cfg request t (own s.shared.journal pid)
  rows : next.shared.committed = schema.overlay s.shared.committed t.writes
  audited : action request ≠ none → ∃ entry rows, Recorded request t entry rows ∧
    Audits next.shared.committed = entry :: Audits s.shared.committed

-- What an act can have done to the tables, the event stream and the revocation markers.
structure Accounted (cfg : Config) (s : Api) (act : Act Request Choice Surroundings)
    (next : Api) : Prop where
  tables : next.shared.committed = s.shared.committed ∨
    ∃ pid choice request t, act = .step pid choice ∧ Complete cfg s next pid request t
  events : next.shared.outbox = s.shared.outbox ∨ ∃ pid choice, act = .step pid choice ∧
    pid ∈ s.shared.db.log.map Entry.owner
  markers : ∀ key, Revocation key → next.shared.markers key = s.shared.markers key ∨
    ∃ pid choice, act = .step pid choice ∧ pid ∈ s.shared.db.log.map Entry.owner

section Steps
variable {cfg : Config} {s : Api} {pid : Pid} {choice : Choice} {after : World}

theorem committed_complete {threads : Pid → Option (Service Value)} (valid : WorldValid s.shared)
    (owed : duty cfg (s.shared.view pid) .commit) (running : s.shared.db.txs pid = some t)
    (base : after.db.base = s.shared.db.base)
    (log : after.db.log = ⟨pid,s.shared.db.now,t⟩ :: s.shared.db.log) :
    after.committed = s.shared.committed ∨
      ∃ request, Complete cfg s ⟨after,threads⟩ pid request t := by
  obtain ⟨request,asked,_,fresh,_,t',same,commits⟩ := owed
  cases running.symm.trans same
  have rows : after.committed = schema.overlay s.shared.committed t.writes := by
    rw [World.committed,Store.committed,base,log]
    rfl
  have first : pid ∉ s.shared.db.log.map Entry.owner := by
    intro there
    obtain ⟨entry,member,owner⟩ := List.mem_map.mp there
    exact fresh (mem_own.mpr (owner ▸ valid.owners entry member))
  by_cases audited : action request = none
  · exact .inr ⟨request,asked,first,running,commits,rows,fun other => absurd audited other⟩
  · rcases commits_recorded commits audited with nothing | ⟨entry,written,recorded⟩
    · rw [nothing,Schema.overlay_nil] at rows
      exact .inl rows
    · refine .inr ⟨request,asked,first,running,commits,rows,fun _ => ⟨entry,written,recorded,?_⟩⟩
      have added := audits_committed (valid.db.fits pid t running) commits
      rw [recorded.audits] at added
      exact (congrArg Audits rows).trans added

theorem executed_accounted {threads : Pid → Option (Service Value)} {c : Cmd}
    {reply : Option (Reply c)} (valid : WorldValid s.shared)
    (listed : ∀ pid, (pid,.committed) ∈ s.shared.journal → pid ∈ s.shared.db.log.map Entry.owner)
    (owed : duty cfg (s.shared.view pid) c) (done : Executed cfg s.shared pid c reply after) :
    Accounted cfg s (.step pid choice) ⟨after,threads⟩ := by
  have base := (executed_grows done).base
  refine ⟨?_,?_,fun key revocation => ?_⟩
  · rcases executed_log done with same | ⟨rfl,t,running,log⟩
    · refine .inl ?_
      rw [World.committed,Store.committed,same,base]
      rfl
    · rcases committed_complete valid owed running base log with same | ⟨request,complete⟩
      · exact .inl same
      · exact .inr ⟨pid,choice,request,t,rfl,complete⟩
  · rcases executed_outbox done with same | ⟨message,rfl⟩
    · exact .inl same
    · obtain ⟨request,_,_,committed⟩ := owed
      exact .inr ⟨pid,choice,rfl,listed pid (mem_own.mp committed)⟩
  · rcases executed_marker key done with ⟨value,ttl,deadline,rfl,_⟩ | ⟨value,ttl,rfl⟩ | ⟨same,_⟩
    · obtain ⟨request,_,_,_,committed,_⟩ := owed
      exact .inr ⟨pid,choice,rfl,listed pid (mem_own.mp committed)⟩
    · obtain ⟨request,_,_,email,rfl⟩ := owed
      exact absurd revocation (throttle_not_revocation email)
    · exact .inl same

end Steps

-- All that a call has contributed to the tables: nothing, or one commit.
def Contributed (cfg : Config) (w : World) (pid : Pid) : Prop := pid ∉ w.db.log.map Entry.owner ∨
  ∃ newer entry older request events, w.db.log = newer ++ entry :: older ∧ entry.owner = pid ∧
    pid ∉ newer.map Entry.owner ∧ pid ∉ older.map Entry.owner ∧ w.requests pid = some request ∧
    Commits cfg request entry.tx events ∧
    (action request ≠ none → entry.tx.writes = [] ∨
    ∃ record rows, Recorded request entry.tx record rows)

theorem history_contributed (history : Commitments cfg w w.db.log)
    (pid : Pid) : Contributed cfg w pid := by
  by_cases there : pid ∈ w.db.log.map Entry.owner
  · obtain ⟨entry,member,rfl⟩ := List.mem_map.mp there
    obtain ⟨newer,older,log⟩ := List.append_of_mem member
    have distinct := history.nodup
    rw [log,List.map_append,List.map_cons,List.nodup_append] at distinct
    obtain ⟨_,rest,apart⟩ := distinct
    obtain ⟨_,request,events,made⟩ := History.split (log ▸ history)
    refine .inr ⟨newer,entry,older,request,events,log,rfl,fun also => ?_,(List.nodup_cons.mp rest).1,
      made.asked,made.commits,?_⟩
    · exact apart _ also _ List.mem_cons_self rfl
    · exact commits_recorded made.commits
  · exact .inl there

-- Every committed change is audited, and no operation leaves a partial change.
theorem changes_audited {base : List Row} {s : Api} (keyed : schema.Keyed base)
    (apart : schema.Apart base)
    (path : Reached (api cfg) (fun _ _ => True) (boot base serial uuids now) s) :
    (∀ act next, advance (api cfg) s act = some next → Accounted cfg s act next) ∧
      ∀ pid, Contributed cfg s.shared pid := by
  obtain ⟨valid,meets⟩ := reached_contract keyed apart path
  refine ⟨fun act next advanced => ?_,history_contributed (reached_commitments keyed apart path)⟩
  cases advance_moves advanced with
  | spawn accepted =>
      obtain ⟨_,rfl⟩ := accept_parts accepted
      exact ⟨.inl rfl,.inl rfl,fun _ _ => .inl rfl⟩
  | wait here ran =>
      exact executed_accounted valid (reached_committed path) (meets_duty (meets _ _ here))
        (exec_executed ran)
  | reply here ran =>
      exact executed_accounted valid (reached_committed path) (meets_duty (meets _ _ here))
        (exec_executed ran)
  | kill _ => exact ⟨.inl rfl,.inl rfl,fun _ _ => .inl rfl⟩
  | env ran =>
      rcases surroundings_parts ran with ⟨elapsed,rfl⟩ | ⟨objects,rfl⟩
      · exact ⟨.inl rfl,.inl rfl,fun _ _ => .inl rfl⟩
      · exact ⟨.inl rfl,.inl rfl,fun _ _ => .inl rfl⟩

namespace Controls
open RestApi.Controls

def updated : Schedule :=
  [.spawn 0 (.updateUser asAnn "u1" "Anna" "" "F"),.step 0 .runs,.step 0 (.plan [.user "u1"]),
    .step 0 .next,.step 0 .runs,.step 0 (.plan [.user "u1"]),.step 0 .next,.step 0 .runs,
    .step 0 .runs,.step 0 .runs]

-- An update of a name: one row changed, one record.
theorem changes_audited_update : ∃ s, Reached (api config) (fun _ _ => True) init s ∧
    (Audits s.shared.committed).map AuditEntry.action = [.userUpdate] ∧
    (∀ act next, advance (api config) s act = some next → Accounted config s act next) ∧
      ∀ pid, Contributed config s.shared pid := by
  obtain ⟨s,path,recorded⟩ := run_finds (api config) (fun _ _ => True) init updated
    (fun s => (Audits s.shared.committed).map AuditEntry.action = [.userUpdate]) (by decide +kernel)
  refine ⟨s,path,recorded,changes_audited ?_ ?_ path⟩
  · simp [Schema.Keyed]
  · simp [Schema.Apart]

end Controls
end RestApi.Audited
