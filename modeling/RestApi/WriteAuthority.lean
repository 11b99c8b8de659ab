import RestApi.Accounts
import RestApi.ServerAccess

namespace RestApi.Http
open Pool Accounts RouteTable RowStore
open AuditTrail (contextOf)

section Scopes
variable {cfg : Config} {t : Tx Row Key} {events : List Event} {caller : RbacContext}

theorem require_inv (permitted : require cfg ctx permission = .done ())
    (acting : ctx.rbac = some caller) : cfg.can caller.role permission = true := by
  simp only [require,acting] at permitted
  split at permitted
  · assumption
  · cases permitted

theorem requireSelfOr_inv (permitted : requireSelfOr cfg ctx userID permission = .done ())
    (acting : ctx.rbac = some caller) :
    caller.userID = some userID ∨ cfg.can caller.role permission = true := by
  simp only [requireSelfOr,acting] at permitted
  split at permitted
  · exact .inl ‹_›
  · split at permitted
    · exact .inr ‹_›
    · cases permitted

-- A row of an account, or a record of what was done.
def rowOf (owner : UUID) : Row → Prop
  | .user row => row.user.id = owner
  | .session sess => sess.userID = owner
  | .audit _ => True
  | .registration _ => False
  | .recovery _ => False

theorem revoked_own {hits : List Row} {row : Row} {owner : UUID}
    (passes : ∀ row ∈ hits, activeSessionOf owner row = true ∧ row ∈ t.seen)
    (wrote : row ∈ hits.map (revokeRow began)) : rowOf owner row := by
  obtain ⟨hit,member,rfl⟩ := List.mem_map.mp wrote
  obtain ⟨active,_⟩ := passes hit member
  cases hit with
  | session sess =>
      simp only [activeSessionOf,Bool.and_eq_true,decide_eq_true_eq] at active
      exact active.1
  | _ => cases active

-- Whose rows a commit may write.
inductive Reach (cfg : Config) (request : Request) (t : Tx Row Key)
    (caller : RbacContext) : Prop where
  | own (self : caller.userID = some owner) (only : ∀ row ∈ t.writes, rowOf owner row)
  | session (asked : request = .logout ctx sess.id) (held : .session sess ∈ t.seen)
      (only : ∀ row ∈ t.writes, rowOf sess.userID row)
  | permitted (permission : Permission) (held : cfg.can caller.role permission = true)

-- A commit behind a closed door writes what is the caller's own, or else the
-- caller's role has held the permission for it.
theorem commits_reach (commits : Commits cfg request t events)
    (kind : closed cfg.internalMode request = true)
    (acting : contextOf request = some ⟨some caller,client'⟩) : Reach cfg request t caller := by
  have self {ctx : Ctx} {owner : UUID} {permission : Permission}
      (permitted : requireSelfOr cfg ctx owner permission = .done ())
      (mine : some ctx = some ⟨some caller,client'⟩) (only : ∀ row ∈ t.writes, rowOf owner row) :
      Reach cfg request t caller := by
    cases mine
    rcases requireSelfOr_inv permitted rfl with own | held
    · exact .own own only
    · exact .permitted permission held
  have role {ctx : Ctx} {permission : Permission}
      (permitted : require cfg ctx permission = .done ())
      (mine : some ctx = some ⟨some caller,client'⟩) : Reach cfg request t caller := by
    cases mine
    exact .permitted permission (require_inv permitted rfl)
  cases commits with
  | register permitted => exact role (permitted kind) acting
  | logoutDead checked same dead writes =>
      subst same
      exact .session rfl checked.seen (by simp [writes])
  | logout checked same unheld writes =>
      subst same
      exact .session rfl checked.seen (by simp [writes,rowOf,Session.revoke])
  | revokeSessionDead checked same permitted dead writes =>
      exact self permitted acting (by simp [writes])
  | revokeSession checked same permitted unheld writes =>
      exact self permitted acting (by simp [writes,rowOf,Session.revoke])
  | changePassword permitted found same verified short verifies locked target revoked last unheld
      writes =>
      refine self permitted acting fun row wrote => ?_
      rw [writes,List.mem_cons,List.mem_append,List.mem_singleton] at wrote
      rcases wrote with rfl | swept | rfl
      · trivial
      · exact revoked_own revoked.hits swept
      · exact target
  | revokeUserSessions permitted => exact role permitted acting
  | updateUser permitted live same changed valid unheld writes =>
      subst changed
      exact self permitted acting (by simpa [writes,rowOf] using same)
  | deleteAbsent permitted => exact role permitted acting
  | deleteUser permitted => exact role permitted acting
  | changeProfilePicture permitted live same drawn stored changed unheld writes =>
      subst changed
      exact self permitted acting (by simpa [writes,rowOf] using same)
  | keepNoPicture permitted live same blank writes => exact self permitted acting (by simp [writes])
  | deleteProfilePicture permitted live same image changed unheld writes =>
      subst changed
      exact self permitted acting (by simpa [writes,rowOf] using same)
  | _ => cases kind

end Scopes

section Runs
variable {Path : Type} {cfg : Config} {order : List Entity} {t : Transport} {matcher : Matcher Path}
  {s : Server Path} {base : List Row}

-- Someone who has had this role from the start.
structure Staff (base : List Row) (token : AccessToken) : Prop where
  given : ∃ row, .user row ∈ base ∧ row.user.id = token.subject ∧ row.user.role = token.role
  role : token.role ≠ .user

-- Nobody is ever given a role.
theorem founded_staff (founded : Founded cfg w log row) (role : row.user.role ≠ .user) :
    ∃ old, .user old ∈ w.db.base ∧ Identity old.user row.user := by
  cases founded with
  | given base same => exact ⟨_,base,same⟩
  | completed _ _ _ same plain => exact absurd (same.role.trans plain) role

theorem server_founded (keyed : schema.Keyed base) (apart : schema.Apart base)
    (path : Reached (server cfg t matcher) allow (Server.boot base serial uuids started) s) :
    s.shared.below.db.base = base ∧ Commitments cfg s.shared.below s.shared.below.db.log ∧
      ∀ row, .user row ∈ s.shared.below.committed →
        Founded cfg s.shared.below s.shared.below.db.log row := by
  obtain ⟨below,run,simulated⟩ := server_simulated path
  rw [← simulated.shared]
  have origin : below.shared.db.base = base := (reached_grows run).base
  have history := reached_commitments keyed apart run
  exact ⟨origin,history,history_founded (origin ▸ keyed) (origin ▸ apart) history⟩

theorem Attributed.staff {r : Incoming Path} (attributed : Attributed cfg t w r token request)
    (founded : ∀ row, .user row ∈ w.committed → Founded cfg w w.db.log row)
    (role : token.role ≠ .user) : Staff w.db.base token := by
  obtain ⟨row,there,subject,same⟩ := attributed.account
  obtain ⟨old,given,identity⟩ := founded_staff (founded row there) (same ▸ role)
  exact ⟨⟨old,given,identity.id.symm.trans subject,identity.role.symm.trans same⟩,role⟩

theorem Attributed.recorded {r : Incoming Path} (attributed : Attributed cfg t w r token request)
    (record : AuditTrail.Attributed request tx entry) (named : token.subject ≠ uuidNil) :
    entry.actorID = some token.subject := by
  obtain ⟨ctx,_,_,within,rfl⟩ := record.context
  cases Option.some.inj (within.symm.trans attributed.context)
  simp [auditEntry,actorOf,actor,named]

theorem authorized_staff (held : (authorized cfg order).can role permission = true) :
    role ≠ .user := by
  rintro rfl
  cases (user_unauthorized cfg order permission).symm.trans held

-- Whatever is written behind a closed door belongs to the holder of the token that
-- came with the request, or the holder has been staff from the start; and what is
-- recorded of it names the holder.
theorem writes_authorised (keyed : schema.Keyed base) (apart : schema.Apart base)
    (known : ∀ sess, .session sess ∈ base → sess.id ∈ uuids)
    (path : Reached (server (authorized cfg order) t matcher) (fun _ _ => True)
      (Server.boot base serial uuids started) s) (member : entry ∈ s.shared.below.db.log)
    (asked : s.shared.below.requests entry.owner = some request)
    (kind : closed cfg.internalMode request = true) :
    ∃ pid r token, s.shared.intakes pid = some r ∧
      Attributed (authorized cfg order) t s.shared.below r token request ∧
      ((∀ row ∈ entry.tx.writes, rowOf token.subject row) ∨ Staff base token) ∧
      ∀ record, .audit record ∈ entry.tx.writes → token.subject ≠ uuidNil →
        record.actorID = some token.subject := by
  obtain ⟨pid,r,token,taken,attributed⟩ := call_attributed keyed apart known path asked kind
  obtain ⟨origin,history,founded⟩ := server_founded keyed apart path
  obtain ⟨newer,older,log⟩ := List.append_of_mem member
  rw [log] at history
  obtain ⟨before,asked',events,made⟩ := history.split
  cases Option.some.inj (asked.symm.trans made.asked)
  refine ⟨pid,r,token,taken,attributed,?_,
    fun record wrote => attributed.recorded (AuditTrail.audit_attributed made.commits wrote)⟩
  cases commits_reach made.commits kind attributed.context with
  | own self only =>
      cases self
      exact .inl only
  | @session ctx sess same held only =>
      subst same
      obtain ⟨new,here,still,keeps,_⟩ := session_kept (origin.symm ▸ keyed) (origin.symm ▸ apart)
        (List.append_cons newer entry older ▸ history) (made.fits.current _ held)
      rw [← List.append_cons,← log] at here
      have mine : sess.userID = token.subject :=
        keeps.symm.trans (attributed.session new here (still.trans attributed.own))
      exact .inl (mine ▸ only)
  | permitted permission held =>
      exact .inr (origin ▸ attributed.staff founded (authorized_staff held))

-- In internal mode nobody comes in but those whom staff of the start have invited,
-- or whose invitation was out already.
theorem internal_accounts (mode : cfg.internalMode = true) (keyed : schema.Keyed base)
    (apart : schema.Apart base) (known : ∀ sess, .session sess ∈ base → sess.id ∈ uuids)
    (path : Reached (server (authorized cfg order) t matcher) (fun _ _ => True)
      (Server.boot base serial uuids started) s) (member : .user row ∈ s.shared.below.committed) :
    (∃ old, .user old ∈ base ∧ Identity old.user row.user) ∨ row.user.role = .user ∧
      ((∃ invitation, .registration invitation ∈ base ∧ invitation.email = row.user.email) ∨
        ∃ goroutine ctx name pid r token,
          s.shared.below.requests goroutine = some (.register ctx name row.user.email) ∧
          s.shared.intakes pid = some r ∧ Staff base token ∧
          Attributed (authorized cfg order) t s.shared.below r token
            (.register ctx name row.user.email)) := by
  obtain ⟨origin,_,founded⟩ := server_founded keyed apart path
  cases founded row member with
  | given base same => exact .inl ⟨_,origin ▸ base,same⟩
  | completed founding asked wrote same plain redeemed named invited =>
      refine .inr ⟨same.role.trans plain,?_⟩
      have email := same.email.trans named.2
      rcases invited with ⟨old,given,_,_,address⟩ | ⟨entry,_,ctx,raw,invites,_,_,permitted⟩
      · exact .inl ⟨old,origin ▸ given,address.symm.trans email.symm⟩
      · obtain ⟨pid,r,token,taken,attributed⟩ := call_attributed keyed apart known path invites mode
        have held := require_inv (permitted mode)
          (congrArg Ctx.rbac (Option.some.inj attributed.context))
        rw [← email] at invites attributed
        exact .inr ⟨entry.owner,ctx,_,pid,r,token,invites,taken,
          origin ▸ attributed.staff founded (authorized_staff held),attributed⟩

end Runs

namespace Controls
open RestApi.Controls

def wired (internalMode : Bool) : Config :=
  authorized {config with internalMode := internalMode} [.auth,.user,.audit]

def leaves : Exchange :=
  [.step 1 .runs,.step 1 (.plan [.session "s1"]),.step 1 .next,.step 1 .runs,.step 1 .runs,
    .step 1 .runs,.step 1 (.plan [.session "s1"]),.step 1 .next,.step 1 .runs,.step 1 .runs,
    .step 1 .runs,.step 1 .runs,.step 1 .runs]

theorem writes_authorised_logout : ∃ s entry, Reached (server (wired false) transport matcher)
    (fun _ _ => True) init s ∧
    entry ∈ s.shared.below.db.log ∧ s.shared.below.requests entry.owner = some leaving ∧
    ∃ token, (∀ row ∈ entry.tx.writes, rowOf token.subject row) ∨
      Staff [.user ⟨ann,none⟩] token := by
  obtain ⟨s,path,written⟩ :=
    run_finds (server (wired false) transport matcher) (fun _ _ => True) init
    (loggedIn ++ admitted 1 logout ++ leaves)
    (fun s => s.shared.below.db.log.any
    (fun entry => s.shared.below.requests entry.owner = some leaving) = true) (by decide +kernel)
  obtain ⟨entry,member,asked⟩ := List.any_eq_true.mp written
  replace asked := of_decide_eq_true asked
  have run := path
  unfold wired at run
  obtain ⟨_,_,token,_,_,scope,_⟩ :=
    writes_authorised (by simp [Schema.Keyed]) (by simp [Schema.Apart])
    (by simp) run member asked rfl
  exact ⟨s,entry,path,member,asked,token,scope⟩

def boss : UserRow := ⟨{ann with role := .admin},none⟩

def register : Incoming (List String) :=
  incoming .post ["api","auth","register"]
    [("access_token","admin")] "\x7b\"name\":\"Bob\",\"email\":\"b@x\"\x7d"

def invited : Exchange :=
  [.step 1 .runs,.step 1 (.plan []),.step 1 .runs,.step 1 (.plan []),.step 1 .runs,
    .step 1 (.value "t2"),.step 1 .runs,.step 1 .runs,.step 1 .runs,.step 1 .runs,.step 1 .runs]

def complete : Incoming (List String) := incoming .post ["api","auth","register","complete"] []
  "\x7b\"token\":\"regt_t2\",\"password\":\"secret12\"\x7d"

def completed : Exchange :=
  [.spawn 2 complete,.step 2 .runs,.step 2 .runs,.step 2 (.plan [.registration 2]),.step 2 .next,
    .step 2 .runs,.step 2 .runs,.step 2 (.value "$secret12"),.step 2 (.value "u2"),.step 2 .runs,
    .step 2 .runs,.step 2 .runs,.step 2 (.plan [.registration 2]),.step 2 .next,.step 2 .runs,
    .step 2 .runs,.step 2 .runs,.step 2 .runs]

def isBob : Row → Bool
  | .user row => row.user.id = "u2"
  | _ => false

-- Bob came in by an invitation of staff.
theorem internal_accounts_invited : ∃ s row,
    Reached (server (wired true) transport matcher) (fun _ _ => True)
      (Server.boot [.user boss] 0 ["u1"] (1000*second)) s ∧
    .user row ∈ s.shared.below.committed ∧ row.user.id = "u2" ∧ row.user.role = .user ∧
    ∃ goroutine ctx name token,
      s.shared.below.requests goroutine = some (.register ctx name row.user.email) ∧
      Staff [.user boss] token := by
  obtain ⟨s,path,came⟩ := run_finds (server (wired true) transport matcher) (fun _ _ => True)
    (Server.boot [.user boss] 0 ["u1"] (1000*second)) (loggedIn ++ admitted 1 register ++ invited ++
      completed)
    (fun s => s.shared.below.committed.any isBob = true) (by decide +kernel)
  obtain ⟨row,member,bob⟩ := List.any_eq_true.mp came
  unfold isBob at bob
  split at bob
  · rename_i row
    replace bob := of_decide_eq_true bob
    have run := path
    unfold wired at run
    have accounts := internal_accounts rfl (by simp [Schema.Keyed]) (by simp [Schema.Apart])
      (by simp) run member
    rcases accounts with ⟨old,given,same⟩ |
      ⟨plain,⟨invitation,given,_⟩ | ⟨goroutine,ctx,name,_,_,token,asked,_,staff,_⟩⟩
    · cases Row.user.inj (List.mem_singleton.mp given)
      exact absurd (same.id.symm.trans bob) (by decide)
    · cases List.mem_singleton.mp given
    · exact ⟨s,row,path,member,bob,plain,goroutine,ctx,name,token,asked,staff⟩
  · cases bob

end Controls
end RestApi.Http
