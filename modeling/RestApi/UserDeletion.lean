import RestApi.Audited

namespace RestApi.UserDeletion
open Pool Program RowStore Audited

-- The requests that retry a deletion or use the sessions it ends.
def retried : Request → Bool
  | .deleteUser _ _ => true
  | .refreshAccessToken _ _ => true
  | .logout _ _ => true
  | _ => false

def retrying (_ : Api) : Act Request Choice Surroundings → Prop
  | .spawn _ request => retried request = true
  | _ => True

instance : ∀ s act, Decidable (retrying s act)
  | _,.spawn _ _ => inferInstanceAs (Decidable (_ = true))
  | _,.step _ _ => inferInstanceAs (Decidable True)
  | _,.kill _ => inferInstanceAs (Decidable True)
  | _,.env _ => inferInstanceAs (Decidable True)

-- The records of a user's deletion.
def records (userID : UUID) (rows : List Row) : List AuditEntry :=
  (Audits rows).filter fun entry => entry.action = .userDelete ∧ entry.entityID = userID

-- A commit that soft-deletes a user.
def Deletes (userID : UUID) (t : Tx Row Key) : Prop :=
  ∃ usr at', .user ⟨usr,some at'⟩ ∈ t.writes ∧ usr.id = userID

-- A user as the tables may have it: alive and no record of a deletion, or
-- deleted with one record and every session revoked.
inductive Stage (userID : UUID) (rows : List Row) : Prop where
  | live (member : .user ⟨usr,none⟩ ∈ rows) (same : usr.id = userID)
      (unrecorded : records userID rows = [])
  | deleted (member : .user ⟨usr,some at'⟩ ∈ rows) (same : usr.id = userID)
      (recorded : records userID rows = [entry])
      (revoked : ∀ sess, .session sess ∈ rows → sess.userID = userID → sess.revokedAt ≠ none)

section Commits
variable {cfg : Config} {request : Request} {t : Tx Row Key} {events : List Event}

theorem retried_user (kind : retried request = true) (commits : Commits cfg request t events)
    (wrote : .user row ∈ t.writes) :
    ∃ ctx usr revoking, request = .deleteUser ctx usr.id ∧ .user ⟨usr,none⟩ ∈ t.seen ∧
      row = ⟨usr,some t.began⟩ ∧
      Sweeps t usr.id revoking := by
  cases commits with
  | deleteUser _ live same revoked last _ writes =>
      have sweeps := sweeps_writes revoked last writes (by simp)
      simp only [writes,List.mem_cons,List.mem_append,reduceCtorEq,Row.user.injEq,List.not_mem_nil,
        or_false,false_or] at wrote
      rcases wrote with hit | rfl
      · obtain ⟨_,_,same⟩ := revoked_row hit revoked.hits
        cases same
      · subst same
        exact ⟨_,_,_,rfl,live,rfl,sweeps⟩
  | deleteAbsent _ _ _ writes => simp [writes] at wrote
  | refreshAccessToken _ _ _ _ _ _ _ writes => simp [writes] at wrote
  | logoutDead _ _ _ writes => simp [writes] at wrote
  | logout _ _ _ writes => simp [writes] at wrote
  | _ => cases kind

-- A refresh holds the live row of the session's user.
theorem refresh_owner (commits : Commits cfg (.refreshAccessToken ctx text) t events)
    (wrote : .session sess ∈ t.writes) :
    ∃ live, .user ⟨live,none⟩ ∈ t.seen ∧ live.id = sess.userID := by
  cases commits with
  | refreshAccessToken _ _ _ _ live owner _ writes =>
      rw [writes,List.mem_singleton] at wrote
      cases wrote
      exact ⟨_,live,owner⟩

-- No request of these opens a session.
theorem retried_session (kind : retried request = true) (commits : Commits cfg request t events)
    (wrote : .session sess ∈ t.writes) :
    ∃ old, .session old ∈ t.seen ∧ SessionStep cfg request events old sess := by
  rcases session_written commits wrote with kept | ⟨_,_,_,_,rfl,_⟩
  · exact kept
  · cases kind

-- Only the commit that deletes a user records it.
theorem retried_records (kind : retried request = true) (commits : Commits cfg request t events)
    (userID : UUID) :
    records userID t.writes = [] ∨ Deletes userID t ∧
      (∃ usr, .user ⟨usr,none⟩ ∈ t.seen ∧ usr.id = userID) ∧
      ∃ entry, records userID t.writes = [entry] := by
  by_cases audited : action request = none
  · cases commits with
    | refreshAccessToken _ _ _ _ _ _ _ writes => exact .inl (by simp [records,Audits,writes,audit?])
    | _ => cases audited
  · rcases commits_recorded commits audited with nothing | ⟨entry,rows,recorded⟩
    · exact .inl (by simp [records,Audits,nothing])
    · by_cases mine : entry.action = .userDelete ∧ entry.entityID = userID
      · have one : records userID t.writes = [entry] := by simp [records,recorded.audits,mine]
        obtain ⟨named,affects,writes⟩ :=
          And.intro recorded.named (And.intro recorded.affects recorded.writes)
        rw [mine.1] at named
        cases request with
        | deleteUser ctx target =>
            generalize entity : entry.entity = kind at affects
            rw [mine.2] at affects
            cases affects with
            | deleteUser stored same _ =>
                have wrote := List.mem_cons_of_mem (Row.audit entry) stored
                rw [← writes] at wrote
                obtain ⟨_,usr,_,_,seen,rfl,_⟩ := retried_user kind commits wrote
                exact .inr ⟨⟨usr,_,wrote,same⟩,⟨usr,seen,same⟩,entry,one⟩
        | _ => cases named
      · exact .inl (by simp only [records,recorded.audits,List.filter_cons,mine]; rfl)

theorem deletion_recorded (kind : retried request = true) (commits : Commits cfg request t events)
    (deletes : Deletes userID t) : records userID t.writes ≠ [] := by
  obtain ⟨usr,_,wrote,rfl⟩ := deletes
  obtain ⟨_,_,_,rfl,_,same,_⟩ := retried_user kind commits wrote
  cases same
  rcases commits_recorded commits nofun with nothing | ⟨entry,rows,recorded⟩
  · rw [nothing] at wrote
    cases wrote
  · obtain ⟨named,affects⟩ := And.intro recorded.named recorded.affects
    generalize entity : entry.entity = kind,target : entry.entityID = userID at affects
    cases affects
    simp [records,recorded.audits,target,← Option.some.inj named]

end Commits

section Runs
variable {cfg : Config} {w : World} {Met : List Event → Tx Row Key → List (Entry Row Key) → Prop}
  {older newer : List (Entry Row Key)} {entry : Entry Row Key} {userID : UUID}

-- A deleted user row is left as it is.
theorem deleted_stays (kind : retried request = true)
    (keyed : schema.Keyed (schema.rows w.db.base older))
    (made : Made cfg w Met older entry request events)
    (member : .user ⟨usr,some at'⟩ ∈ schema.rows w.db.base older) :
    .user ⟨usr,some at'⟩ ∈ schema.rows w.db.base (entry :: older) := by
  rcases Schema.kept_or_written entry member with kept | ⟨row,wrote,same,_⟩
  · exact kept
  · cases row with
    | user new =>
        obtain ⟨_,old,_,_,seen,rfl,_⟩ := retried_user kind made.commits wrote
        cases keyed _ (made.fits.current _ seen) _ member same
    | _ => cases same

theorem sessions_stay (kind : retried request = true)
    (made : Made cfg w Met older entry request events)
    (revoked : ∀ sess, .session sess ∈ schema.rows w.db.base older → sess.userID = userID →
      sess.revokedAt ≠ none) :
    ∀ sess, .session sess ∈ schema.rows w.db.base (entry :: older) → sess.userID = userID →
      sess.revokedAt ≠ none := by
  intro sess member owner alive
  rcases session_step made.fits made.commits member with ⟨old,there,step⟩ | ⟨_,_,_,_,_,_,_,rfl,_⟩
  · obtain ⟨_,same,_,unrevoked⟩ := step.same
    exact revoked old there (same.symm.trans owner) (unrevoked alive)
  · cases kind

-- The commit that deletes a user ends all of its sessions.
theorem deletion_revokes
    (kinds : ∀ pid request, w.requests pid = some request → retried request = true)
    (before : History cfg w Met older) (keyed : schema.Keyed (schema.rows w.db.base older))
    (made : Made cfg w Met older entry request events) (deletes : Deletes userID entry.tx) :
    ∀ sess, .session sess ∈ schema.rows w.db.base (entry :: older) → sess.userID = userID →
      sess.revokedAt ≠ none := by
  intro sess member owner alive
  obtain ⟨usr,_,wrote,rfl⟩ := deletes
  have kind := kinds _ _ made.asked
  obtain ⟨_,_,revoking,_,_,same,sweeps⟩ := retried_user kind made.commits wrote
  cases same
  rcases session_step made.fits made.commits member with ⟨old,there,step⟩ | ⟨_,_,_,_,_,_,_,rfl,_⟩
  · obtain ⟨id,also,_,unrevoked⟩ := step.same
    have active : activeSessionOf usr.id (.session old) = true := by
      simp [activeSessionOf,← also,owner,unrevoked alive]
    refine swept_dead before made.fits keyed sweeps
      (fun login recently unlocked new wrote _ => ?_) there active member id alive
    obtain ⟨_,_,_,earlier⟩ := before.made (mem_recent recently)
    obtain ⟨_,seen,_⟩ := retried_session (kinds _ _ earlier.asked) earlier.commits wrote
    simp [Tx.seen,unlocked] at seen
  · cases kind

theorem records_committed (made : Made cfg w Met older entry request events) :
    records userID (schema.rows w.db.base (entry :: older)) =
      records userID entry.tx.writes ++ records userID (schema.rows w.db.base older) := by
  rw [records,Schema.rows,audits_committed made.fits made.commits,List.filter_append]
  rfl

theorem commit_stage (kinds : ∀ pid request, w.requests pid = some request → retried request = true)
    (keyed : schema.Keyed w.db.base) (apart : schema.Apart w.db.base)
    (before : History cfg w Met older) (made : Made cfg w Met older entry request events)
    (stage : Stage userID (schema.rows w.db.base older)) :
    Stage userID (schema.rows w.db.base (entry :: older)) := by
  have unique := (before.chronicle keyed apart).keyed
  have kind := kinds _ _ made.asked
  have added : records userID (schema.rows w.db.base (entry :: older)) = _ := records_committed made
  rcases retried_records kind made.commits userID with none |
    ⟨⟨usr,at',wrote,same⟩,⟨seen,locked,also⟩,record,one⟩
  · rw [none,List.nil_append] at added
    cases stage with
    | live member same unrecorded =>
        rcases Schema.kept_or_written entry member with kept | ⟨row,wrote,key,_⟩
        · exact .live kept same (added.trans unrecorded)
        · cases row with
          | user new =>
              obtain ⟨_,usr,_,_,_,rfl,_⟩ := retried_user kind made.commits wrote
              exact absurd none (deletion_recorded kind made.commits
                ⟨usr,_,wrote,(Key.user.inj key).trans same⟩)
          | _ => cases key
    | deleted member same recorded revoked =>
        exact .deleted (deleted_stays kind unique made member) same (added.trans recorded)
          (sessions_stay kind made revoked)
  · cases stage with
    | live member _ unrecorded =>
        rw [one,unrecorded] at added
        exact .deleted (Schema.mem_rows_cons.mpr (.inl wrote)) same added
          (deletion_revokes kinds before unique made ⟨usr,at',wrote,same⟩)
    | deleted member same' _ _ =>
        cases unique _ (made.fits.current _ locked) _ member
          (congrArg Key.user (also.trans same'.symm))

theorem history_stage
    (kinds : ∀ pid request, w.requests pid = some request → retried request = true)
    (keyed : schema.Keyed w.db.base) (apart : schema.Apart w.db.base)
    (start : Stage userID w.db.base) (history : History cfg w Met log) :
    Stage userID (schema.rows w.db.base log) := by
  induction history with
  | start => exact start
  | commit before made ih => exact commit_stage kinds keyed apart before made ih

theorem deleted_kept (kinds : ∀ pid request, w.requests pid = some request → retried request = true)
    (keyed : schema.Keyed w.db.base) (apart : schema.Apart w.db.base)
    (history : History cfg w Met (newer ++ older))
    (member : .user ⟨usr,some at'⟩ ∈ schema.rows w.db.base older) :
    .user ⟨usr,some at'⟩ ∈ schema.rows w.db.base (newer ++ older) := by
  induction newer with
  | nil => exact member
  | cons entry rest ih =>
      cases history with
      | commit before made =>
          exact deleted_stays (kinds _ _ made.asked) (before.chronicle keyed apart).keyed made
            (ih before)

theorem deleted_once (kinds : ∀ pid request, w.requests pid = some request → retried request = true)
    (keyed : schema.Keyed w.db.base) (apart : schema.Apart w.db.base)
    (history : History cfg w Met (newer ++ latter :: older)) (early : former ∈ older)
    (one : Deletes userID former.tx) : ¬Deletes userID latter.tx := by
  rintro ⟨usr,_,wrote,rfl⟩
  obtain ⟨usr',at',wrote',same⟩ := one
  obtain ⟨before,request,events,made⟩ := history.split
  obtain ⟨middle,oldest,rfl⟩ := List.append_of_mem early
  have gone := deleted_kept kinds keyed apart before (Schema.mem_rows_cons.mpr (.inl wrote'))
  obtain ⟨_,_,_,_,seen,equal,_⟩ := retried_user (kinds _ _ made.asked) made.commits wrote
  cases equal
  cases (before.chronicle keyed apart).keyed _ (made.fits.current _ seen) _ gone
    (congrArg Key.user same.symm)

-- A call that commits has deleted the user itself or found it deleted.
theorem deletion_found {base : List Row} {t : Tx Row Key} (fits : Fits schema base older t)
    (keyed : schema.Keyed (schema.rows base older))
    (commits : Commits cfg (.deleteUser ctx userID) t events)
    (unwritten : ∀ entry ∈ older, ∀ usr, .user ⟨usr,none⟩ ∉ entry.tx.writes) :
    Deletes userID t ∨ ∀ usr, .user ⟨usr,none⟩ ∈ schema.rows base older → usr.id ≠ userID := by
  cases commits with
  | deleteAbsent _ looked nobody writes =>
      refine .inr fun usr member same => ?_
      have passes : liveUser (fun u => u.id = userID) (.user ⟨usr,none⟩) = true := by
        simp [liveUser,same]
      rcases looked.finds fits keyed member passes fun entry recently => unwritten entry
        (mem_recent recently) usr with hit | written
      · rw [nobody] at hit
        cases hit
      · rw [writes] at written
        cases written
  | deleteUser _ _ same _ _ _ writes =>
      refine .inl ⟨_,t.began,?_,same⟩
      rw [writes]
      exact List.mem_cons_of_mem _ (List.mem_append_right _ List.mem_cons_self)

theorem deletion_leaves
    (kinds : ∀ pid request, w.requests pid = some request → retried request = true)
    (keyed : schema.Keyed w.db.base) (apart : schema.Apart w.db.base)
    (start : Stage userID w.db.base) (history : History cfg w Met log) (member : entry ∈ log)
    (asked : w.requests entry.owner = some (.deleteUser ctx userID)) :
    ∃ usr at', .user ⟨usr,some at'⟩ ∈ schema.rows w.db.base log ∧ usr.id = userID := by
  obtain ⟨newer,older,rfl⟩ := List.append_of_mem member
  obtain ⟨before,request,events,made⟩ := history.split
  cases made.asked.symm.trans asked
  have unwritten : ∀ entry ∈ older, ∀ usr, .user ⟨usr,none⟩ ∉ entry.tx.writes := by
    intro entry earlier usr wrote
    obtain ⟨_,_,_,made⟩ := before.made earlier
    obtain ⟨_,_,_,_,_,same,_⟩ := retried_user (kinds _ _ made.asked) made.commits wrote
    cases same
  rcases deletion_found made.fits (before.chronicle keyed apart).keyed made.commits unwritten with
    ⟨usr,at',wrote,same⟩ | gone
  · exact ⟨usr,at',deleted_kept kinds keyed apart history (Schema.mem_rows_cons.mpr (.inl wrote)),
      same⟩
  · cases history_stage kinds keyed apart start before with
    | live there same _ => exact absurd same (gone _ there)
    | deleted there same _ _ =>
        have still := deleted_stays (kinds _ _ made.asked)
          (before.chronicle keyed apart).keyed made there
        exact ⟨_,_,deleted_kept kinds keyed apart history still,same⟩

-- No refresh goes through for a user that was deleted before.
theorem deleted_refuses
    (kinds : ∀ pid request, w.requests pid = some request → retried request = true)
    (keyed : schema.Keyed w.db.base) (apart : schema.Apart w.db.base)
    (history : History cfg w Met (newer ++ older))
    (gone : .user ⟨usr,some at'⟩ ∈ schema.rows w.db.base older) (recent : entry ∈ newer)
    (asked : w.requests entry.owner = some (.refreshAccessToken ctx text)) :
    ∀ sess, .session sess ∈ entry.tx.writes → sess.userID ≠ usr.id := by
  obtain ⟨newest,middle,rfl⟩ := List.append_of_mem recent
  obtain ⟨before,request,events,made⟩ := History.split (by simpa using history)
  cases made.asked.symm.trans asked
  have still := deleted_kept kinds keyed apart before gone
  intro sess wrote same
  obtain ⟨live,seen,owner⟩ : ∃ live, .user ⟨live,none⟩ ∈ entry.tx.seen ∧ live.id = sess.userID :=
    refresh_owner made.commits wrote
  cases (before.chronicle keyed apart).keyed _ (made.fits.current _ seen) _ still
    (congrArg Key.user (owner.trans same))

end Runs

-- What the deletion of a user has come to at `later`, and which of it was settled by `s`.
structure Converges (cfg : Config) (init : Api) (userID : UUID) (s later : Api) : Prop where
  single : ∀ former ∈ later.shared.db.log, ∀ latter ∈ later.shared.db.log,
    Deletes userID former.tx → Deletes userID latter.tx → former = latter
  stage : Stage userID later.shared.committed
  kept : ∀ usr at', .user ⟨usr,some at'⟩ ∈ s.shared.committed →
    .user ⟨usr,some at'⟩ ∈ later.shared.committed
  returned : ∀ pid ctx value, s.threads pid = some (.done value) →
    s.shared.requests pid = some (.deleteUser ctx userID) →
    (∃ usr at', .user ⟨usr,some at'⟩ ∈ later.shared.committed ∧ usr.id = userID) ∧
    (∀ sess, .session sess ∈ later.shared.committed → sess.userID = userID →
    sess.revokedAt ≠ none) ∧ ∀ entry ∈ later.shared.db.log, entry ∉ s.shared.db.log →
    ∀ ctx text, later.shared.requests entry.owner = some (.refreshAccessToken ctx text) →
    ∀ sess, .session sess ∈ entry.tx.writes → sess.userID ≠ userID
  refreshed : ∀ pid ctx text value, later.threads pid = some (.done value) →
    later.shared.requests pid = some (.refreshAccessToken ctx text) →
      ∃ entry ∈ later.shared.db.log, entry.owner = pid
  watermark : ∀ start spawned pid ctx value, Reached (api cfg) retrying init start →
    advance (api cfg) start (.spawn pid (.deleteUser ctx userID)) = some spawned →
      Reached (api cfg) retrying spawned s → s.threads pid = some (.done value) → 0 < cfg.jwtTTL →
      ∃ w, start.shared.db.now ≤ w ∧ (pid,.marked (revokedUserKey userID) (formatInt w)) ∈
      s.shared.journal

section Calls
variable {cfg : Config} {base : List Row} {start spawned s : Api}

-- The watermark of a successful call is no older than the call.
theorem deletion_marks (keyed : schema.Keyed base) (apart : schema.Apart base)
    (path : Reached (api cfg) retrying (boot base serial uuids now) start)
    (called : advance (api cfg) start (.spawn pid (.deleteUser ctx userID)) = some spawned)
    (during : Reached (api cfg) retrying spawned s) (finished : s.threads pid = some (.done value))
    (positive : 0 < cfg.jwtTTL) :
    ∃ w, start.shared.db.now ≤ w ∧ (pid,.marked (revokedUserKey userID) (formatInt w)) ∈
      s.shared.journal := by
  have allowed : retrying start (.spawn pid (.deleteUser ctx userID)) := rfl
  have whole := (path.step allowed called).trans during
  have unborn := (reached_contract keyed apart path).1.unborn pid
  obtain ⟨request,same,ends⟩ := (reached_contract keyed apart whole).2 pid _ finished
  have grows := reached_grows during
  cases advance_moves called with
  | spawn accepted =>
      obtain ⟨absent,rfl⟩ := accept_parts accepted
      have asked := grows.requests pid (.deleteUser ctx userID) (by simp)
      cases same.symm.trans asked
      obtain ⟨_,unmarked | ⟨w,heard,marked⟩⟩ := ends
      · exact absurd positive (Int.not_lt.mpr unmarked)
      · refine ⟨w,reached_clocks (Int.le_refl _) (fun time noted => ?_) during w (mem_own.mp heard),
          mem_own.mp marked⟩
        have none := mem_own.mpr noted
        rw [(unborn absent).2] at none
        cases none

end Calls

namespace Controls
open RestApi.Controls

def deleted (pid : Pid) : Schedule :=
  [.spawn pid (.deleteUser asAnn "u1"),.step pid .runs,.step pid (.plan [.user "u1"]),
    .step pid .next,.step pid .runs,.step pid (.plan [.user "u1"]),.step pid .next,.step pid .runs,
    .step pid (.plan [.session "s1"]),.step pid .next,.step pid .runs,.step pid .runs,
    .step pid .runs,.step pid .runs,.step pid .runs,.step pid .fails]

def repeated (pid : Pid) : Schedule :=
  [.spawn pid (.deleteUser asAnn "u1"),.step pid .runs,.step pid (.plan []),.step pid .runs,
    .step pid .runs,.step pid .runs,.step pid .runs,.step pid .runs]

end Controls
end RestApi.UserDeletion
