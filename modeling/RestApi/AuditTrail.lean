import RestApi.Audited

namespace RestApi.AuditTrail
open Pool Program RowStore Audited

variable {cfg : Config}

-- The context a request came with.
def contextOf : Request → Option Ctx
  | .register ctx _ _ => some ctx
  | .completeRegistration ctx _ _ => some ctx
  | .login ctx _ _ => some ctx
  | .refreshAccessToken ctx _ => some ctx
  | .logout ctx _ => some ctx
  | .recoverPassword ctx _ => some ctx
  | .resetPassword ctx _ _ => some ctx
  | .changePassword ctx _ _ _ => some ctx
  | .revokeUserSessions ctx _ => some ctx
  | .revokeSession ctx _ => some ctx
  | .updateUser ctx _ _ _ _ => some ctx
  | .deleteUser ctx _ => some ctx
  | .changeProfilePicture ctx _ _ => some ctx
  | .deleteProfilePicture ctx _ => some ctx
  | .authenticate _ => none

-- The images in a record: the row under the lock, and the row as it was written.
structure Images (t : Tx Row Key) (record : AuditEntry) : Prop where
  prev : ∀ image, record.prev = some image → ∃ u, image = .user u ∧ .user ⟨u,none⟩ ∈ t.seen
  next : ∀ image, record.next = some image →
    (∃ u, image = .user u ∧ .user ⟨u,none⟩ ∈ t.writes) ∨ ∃ token, image = .registrationToken token ∧
      .registration token ∈ t.writes

-- A record speaks for the request that wrote it: it names the request's action and
-- the entity the rows beside it belong to, its actor and its metadata are the
-- context's, its time is the start of the transaction.
structure Attributed (request : Request) (t : Tx Row Key) (record : AuditEntry) : Prop where
  wrote : .audit record ∈ t.writes
  recorded : ∃ rows, Recorded request t record rows
  context : ∃ ctx r serial, contextOf request = some ctx ∧ record = auditEntry ctx r t.began serial
  images : Images t record

section Commits
variable {request : Request} {t : Tx Row Key} {events : List Event}

theorem imageless (ctx : Ctx) (action : Action) (entity entityID : String)
    (fields : List (String × String)) (began : Time) (serial : Nat) :
    Images t (auditEntry ctx ⟨action,entity,entityID,none,none,fields⟩ began serial) :=
  ⟨by rintro _ ⟨⟩,by rintro _ ⟨⟩⟩

theorem user_images {record : AuditEntry} (before : record.prev = some (.user prev))
    (after : record.next = some (.user next)) (live : .user ⟨prev,none⟩ ∈ t.seen)
    (wrote : .user ⟨next,none⟩ ∈ t.writes) : Images t record := by
  refine ⟨fun image same => ⟨prev,?_,live⟩,fun image same => .inl ⟨next,?_,wrote⟩⟩
  · exact Option.some.inj (same.symm.trans before)
  · exact Option.some.inj (same.symm.trans after)

theorem audit_context {rows : List Row} (commits : Commits cfg request t events)
    (recorded : Recorded request t record rows) :
    (∃ ctx r serial, contextOf request = some ctx ∧ record = auditEntry ctx r t.began serial) ∧
      Images t record := by
  cases commits with
  | register _ _ _ _ _ _ _ writes =>
      cases recorded.heads writes
      refine ⟨⟨_,_,_,rfl,rfl⟩,nofun,fun image same => ?_⟩
      exact .inr ⟨_,(Option.some.inj same).symm,writes ▸ List.mem_cons_of_mem _ List.mem_cons_self⟩
  | completeRegistration _ _ _ _ _ _ _ _ writes =>
      cases recorded.heads writes
      refine ⟨⟨_,_,_,rfl,rfl⟩,nofun,fun image same => ?_⟩
      exact .inl ⟨_,(Option.some.inj same).symm,writes ▸ List.mem_cons_of_mem _ List.mem_cons_self⟩
  | login _ _ _ _ _ _ _ writes =>
      cases recorded.heads writes
      exact ⟨⟨_,_,_,rfl,rfl⟩,imageless ..⟩
  | refreshAccessToken _ _ _ _ _ _ _ writes => cases recorded.writes.symm.trans writes
  | logoutDead _ _ _ writes => cases recorded.writes.symm.trans writes
  | logout _ _ _ writes =>
      cases recorded.heads writes
      exact ⟨⟨_,_,_,rfl,rfl⟩,imageless ..⟩
  | revokeSessionDead _ _ _ _ writes => cases recorded.writes.symm.trans writes
  | revokeSession _ _ _ _ writes =>
      cases recorded.heads writes
      exact ⟨⟨_,_,_,rfl,rfl⟩,imageless ..⟩
  | recoverPassword _ _ _ _ _ writes =>
      cases recorded.heads writes
      exact ⟨⟨_,_,_,rfl,rfl⟩,imageless ..⟩
  | resetPassword _ _ _ _ _ _ _ _ _ _ _ _ _ _ writes =>
      cases recorded.heads writes
      exact ⟨⟨_,_,_,rfl,rfl⟩,imageless ..⟩
  | changePassword _ _ _ _ _ _ _ _ _ _ _ writes =>
      cases recorded.heads writes
      exact ⟨⟨_,_,_,rfl,rfl⟩,imageless ..⟩
  | revokeUserSessions _ _ _ writes =>
      cases recorded.heads writes
      exact ⟨⟨_,_,_,rfl,rfl⟩,imageless ..⟩
  | updateUser _ live _ _ _ _ writes =>
      cases recorded.heads writes
      exact ⟨⟨_,_,_,rfl,rfl⟩,user_images rfl rfl live
        (writes ▸ List.mem_cons_of_mem _ List.mem_cons_self)⟩
  | deleteAbsent _ _ _ writes => cases recorded.writes.symm.trans writes
  | deleteUser _ _ _ _ _ _ writes =>
      cases recorded.heads writes
      exact ⟨⟨_,_,_,rfl,rfl⟩,imageless ..⟩
  | changeProfilePicture _ live _ _ _ _ _ writes =>
      cases recorded.heads writes
      exact ⟨⟨_,_,_,rfl,rfl⟩,user_images rfl rfl live
        (writes ▸ List.mem_cons_of_mem _ List.mem_cons_self)⟩
  | keepNoPicture _ _ _ _ writes => cases recorded.writes.symm.trans writes
  | deleteProfilePicture _ live _ _ _ _ writes =>
      cases recorded.heads writes
      exact ⟨⟨_,_,_,rfl,rfl⟩,user_images rfl rfl live
        (writes ▸ List.mem_cons_of_mem _ List.mem_cons_self)⟩

-- The one record of a commit.
theorem audit_attributed (commits : Commits cfg request t events)
    (wrote : .audit record ∈ t.writes) : Attributed request t record := by
  obtain ⟨rows,recorded⟩ := audit_recorded commits wrote
  obtain ⟨context,images⟩ := audit_context commits recorded
  exact ⟨wrote,⟨rows,recorded⟩,context,images⟩

end Commits

section Runs
variable {w : World} {Met : List Event → Tx Row Key → List (Entry Row Key) → Prop}

theorem history_appends (history : History cfg w Met (newer ++ older)) :
    ∃ added, Audits (schema.rows w.db.base (newer ++ older)) = added ++
      Audits (schema.rows w.db.base older) := by
  induction newer with
  | nil => exact ⟨[],rfl⟩
  | cons entry rest ih =>
      cases history with
      | commit before made =>
          obtain ⟨added,same⟩ := ih before
          refine ⟨Audits entry.tx.writes ++ added,
            (audits_committed made.fits made.commits).trans ?_⟩
          rw [List.append_assoc]
          exact congrArg (Audits entry.tx.writes ++ ·) same

-- A record of the tables: from the start, or a commit's, with its images taken
-- from the state before and the state after that commit.
inductive Documented (w : World) (log : List (Entry Row Key)) (record : AuditEntry) : Prop where
  | given (base : .audit record ∈ w.db.base)
  | written (newer older : List (Entry Row Key)) (split : log = newer ++ entry :: older)
      (asked : w.requests entry.owner = some request)
      (attributed : Attributed request entry.tx record)
      (prev : ∀ u, record.prev = some (.user u) → .user ⟨u,none⟩ ∈ schema.rows w.db.base older)
      (next : ∀ u, record.next = some (.user u) → .user ⟨u,none⟩ ∈ schema.rows w.db.base
        (entry :: older))

theorem history_recorded (history : History cfg w Met log) :
    ∀ record, .audit record ∈ schema.rows w.db.base log → Documented w log record := by
  induction history with
  | start => exact fun record member => .given member
  | @commit older entry request events before made ih =>
      intro record member
      rcases Schema.mem_rows_cons.mp member with wrote | ⟨old,_⟩
      · have attributed := audit_attributed made.commits wrote
        refine .written [] older rfl made.asked attributed (fun u known => ?_) fun u known => ?_
        · obtain ⟨_,same,seen⟩ := attributed.images.prev _ known
          cases same
          exact made.fits.current _ seen
        · rcases attributed.images.next _ known with ⟨_,same,stored⟩ | ⟨_,same,_⟩
          · cases same
            exact Schema.mem_rows_cons.mpr (.inl stored)
          · cases same
      · cases ih record old with
        | given base => exact .given base
        | written newer rest split asked attributed prev next =>
            exact .written (entry :: newer) rest
              (congrArg (entry :: ·) split) asked attributed prev next

-- The audit trail only grows, and every record in it is what its request did.
theorem audit_trail_faithful {base : List Row} {s m : Api} (keyed : schema.Keyed base)
    (apart : schema.Apart base)
    (path : Reached (api cfg) (fun _ _ => True) (boot base serial uuids now) m)
    (onward : Reached (api cfg) (fun _ _ => True) m s) :
    (∃ added, Audits s.shared.committed = added ++ Audits m.shared.committed) ∧
      ∀ record, .audit record ∈ s.shared.committed →
        Documented s.shared s.shared.db.log record := by
  have history := reached_commitments keyed apart (path.trans onward)
  refine ⟨?_,history_recorded history⟩
  obtain ⟨newer,log⟩ := (reached_grows onward).log
  obtain ⟨added,same⟩ := history_appends (log ▸ history)
  refine ⟨added,?_⟩
  rw [World.committed,Store.committed,log,same,(reached_grows onward).base]
  rfl

namespace Controls
open RestApi.Controls

def updated (pid : Pid) (name : String) : Schedule :=
  [.spawn pid (.updateUser asAnn "u1" name "" "F"),.step pid .runs,.step pid (.plan [.user "u1"]),
    .step pid .next,.step pid .runs,.step pid (.plan [.user "u1"]),.step pid .next,.step pid .runs,
    .step pid .runs,.step pid .runs]

-- Two updates: two records, the newer in front.
theorem audit_trail_faithful_updates : ∃ s, Reached (api config) (fun _ _ => True) init s ∧
    (Audits s.shared.committed).map AuditEntry.actorID = [some "u1",some "u1"] ∧
    ∀ record, .audit record ∈ s.shared.committed → Documented s.shared s.shared.db.log record := by
  obtain ⟨s,path,recorded⟩ :=
    run_finds (api config) (fun _ _ => True) init (updated 0 "Anna" ++ updated 1 "Anne")
    (fun s => (Audits s.shared.committed).map AuditEntry.actorID = [some "u1",some "u1"])
    (by decide +kernel)
  refine ⟨s,path,recorded,(audit_trail_faithful ?_ ?_ .refl path).2⟩
  · simp [Schema.Keyed]
  · simp [Schema.Apart]

end Controls
end Runs
end RestApi.AuditTrail
