import RestApi.Accounts
import RestApi.ClosedSessions
import RestApi.ServiceContracts

namespace RestApi.TokenOrigins
open Pool Program RowStore Service Accounts ClosedSessions

variable {cfg : Config}

-- How a request comes to sign a token: a login for the live user whose password
-- it has just verified, a refresh for the owner of the session it holds.
inductive Signing (cfg : Config) (v : View) (signedAt : Time)
    (token : AccessToken) : Request → Prop where
  | login (found : .selected position [.user ⟨usr,none⟩] ∈ v.events) (email : usr.email = address)
      (verified : cfg.compareHashAndPassword usr.password password = true)
      (drawn : .uuid sessID ∈ v.events)
      (made : token = accessToken cfg usr.id sessID usr.role signedAt) :
      Signing cfg v signedAt token (.login ctx address password)
  | refresh (running : v.tx = some t) (held : .session sess ∈ t.seen)
      (hash : sess.refreshTokenHash = cfg.hashStr text) (unrevoked : sess.revokedAt = none)
      (live : .user ⟨usr,none⟩ ∈ t.seen) (owner : usr.id = sess.userID)
      (made : token = accessToken cfg usr.id sess.id usr.role signedAt) :
      Signing cfg v signedAt token (.refreshAccessToken ctx text)

-- The session a commit writes is the one its goroutine has signed for.
def Matches (v : View) (t : Tx Row Key) : Prop :=
  ∀ signedAt token sess, .signed signedAt token ∈ v.events → .session sess ∈ t.writes →
    sess.id = token.sessionID ∧ sess.userID = token.subject

def Vouches (cfg : Config) (request : Request) (v : View) (c : Cmd) : Prop := match c with
  | .sign signedAt token => .committed ∉ v.events ∧ Signing cfg v signedAt token request
  | .commit => ∀ t, v.tx = some t → Matches v t
  | _ => True

section Contracts
variable {asked : Option Request}

theorem vouches_free (cfg : Config) (request : Request) (v : View) (c : Cmd)
    (free : c.free = true) : Vouches cfg request v c := by
  cases c <;> trivial

theorem login_vouches (ctx : Ctx) (email password : String) :
    Meets (Local cfg) (Vouches cfg (.login ctx email password)) (fun _ _ => True)
    (AuthService.login cfg ctx email password) ⟨asked,none,[],none⟩ := by
  have free := vouches_free cfg (.login ctx email password)
  refine meets_bind (meets_settle (selectOne_meets free ?_ (fun _ => trivial) fun _ _ _ => trivial))
  intro position row usr passes picked
  cases user_shape _ row usr passes picked
  have same : usr.email = email := by simpa [liveUser] using passes
  refine meets_bind (verifyPassword_meets (fun verified => ?_) fun _ _ => trivial)
  refine meets_bind (newSession_meets free (fun _ _ => trivial) trivial (fun _ => trivial)
    fun drawn raw ip agent created => ?_)
  refine meets_bind (signAccessToken_meets free (fun _ _ => trivial) (fun signedAt => ?_)
    fun signedAt => ?_)
  · refine ⟨by simp,.login (show Event.selected position
      [.user ⟨usr,none⟩] ∈ _ by simp) same verified ?_ rfl⟩
    simp
  · refine meets_bind (transact_meets free (fun _ _ => trivial) fun began since => ?_)
    refine meets_bind (insert_meets free rfl (fun _ _ => trivial) fun _ _ => ?_)
    refine recordAudit_meets free rfl (fun _ _ => trivial) fun entry unheld => ?_
    refine ⟨fun t running signedAt token sess signed wrote => ?_,trivial⟩
    cases running
    simp only [View.within_events,View.note_events,List.mem_cons,reduceCtorEq,Event.signed.injEq,
      List.not_mem_nil,or_false] at signed
    simp only [Tx.empty,List.mem_cons,reduceCtorEq,Row.session.injEq,List.not_mem_nil,or_false,
      false_or] at wrote
    obtain ⟨rfl,rfl⟩ := signed
    subst wrote
    exact ⟨rfl,rfl⟩

theorem refreshAccessToken_vouches (ctx : Ctx) (text : String) :
    Meets (Local cfg) (Vouches cfg (.refreshAccessToken ctx text))
    (fun _ _ => True) (AuthService.refreshAccessToken cfg ctx text) ⟨asked,none,[],none⟩ := by
  have free := vouches_free cfg (.refreshAccessToken ctx text)
  refine transact_meets free (fun _ _ => trivial) fun began since => ?_
  refine meets_bind (meets_settle (lockOne_meets (session_shape _) rfl rfl rfl
    (fun _ _ => trivial) ?_ (fun _ _ _ _ _ => trivial) fun _ _ _ => trivial))
  intro t1 scan sess stamp ran clean hits locked passes
  have hash : sess.refreshTokenHash = cfg.hashStr text := by simpa [sessionWithHash] using passes
  refine meets_bind (now_meets free fun checkedAt latest => ?_)
  dsimp only
  split
  · trivial
  split
  · trivial
  rename_i unrevoked
  replace unrevoked : sess.revokedAt = none := by simpa using unrevoked
  refine meets_bind (lockOne_meets (user_shape _) rfl ran.frame.1 clean
    (fun _ _ => trivial) ?_ (fun _ _ _ _ _ => trivial) fun _ _ _ => trivial)
  intro t2 scan2 usr stamp2 ran2 clean2 hits2 locked2 passes2
  have owner : usr.id = sess.userID := by simpa [liveUser] using passes2
  have still := ran2.frame.2.2.2 locked
  refine meets_bind (signAccessToken_meets free (fun _ _ => trivial) (fun signedAt => ?_)
    fun signedAt => ?_)
  · refine ⟨by simp,.refresh rfl (List.mem_map_of_mem still) hash unrevoked
      (List.mem_map_of_mem locked2) owner ?_⟩
    rw [owner]
  · refine meets_bind (rotate_meets free (fun _ _ => trivial) trivial
      fun raw ip agent accessed => ?_)
    refine meets_bind (updateSeen_meets rfl ran2.frame.1 (List.mem_map_of_mem still)
      (by simp [clean2,Schema.keys]) (by simp [sessionWithID])
      (fun _ found => sessionWithID_key found) (fun _ _ => trivial) (fun _ _ => trivial) ?_)
    intro t3 scan3 ran3 writes
    refine ⟨fun t running signedAt' token sess' signed wrote => ?_,trivial⟩
    cases running
    simp only [View.within_events,View.note_events,List.mem_cons,reduceCtorEq,Event.signed.injEq,
      List.not_mem_nil,or_false,false_or] at signed
    rw [writes,clean2,List.mem_singleton] at wrote
    obtain ⟨rfl,rfl⟩ := signed
    cases wrote
    exact ⟨rfl,rfl⟩

theorem local_signed {v after : View} {c : Cmd} {reply : Option (Reply c)}
    (stepped : Local cfg v c reply after) (signed : .signed signedAt token ∈ after.events) :
    .signed signedAt token ∈ v.events ∨ c = .sign signedAt token := by
  cases stepped with
  | lock ran => cases ran <;> exact .inl signed
  | update ran => cases ran <;> exact .inl signed
  | signed =>
      simp only [View.note_events,List.mem_cons,Event.signed.injEq] at signed
      rcases signed with ⟨rfl,rfl⟩ | old
      · exact .inr rfl
      · exact .inl old
  | _ => exact .inl (by simpa [View.note,View.ended,View.committed,View.within] using signed)

-- The other requests sign nothing.
theorem unsigned_vouches (never : ∀ v signedAt token, ¬Signs cfg request v signedAt token) :
    Meets (Local cfg) (Vouches cfg request) (fun _ _ => True) (serve cfg request)
      ⟨asked,none,[],none⟩ := by
  refine meets_mono (fun v c owed => ?_) (fun _ _ _ => trivial) (meets_stable
    (fun v => ∀ signedAt token, .signed signedAt token ∉ v.events)
      (fun v c reply after owed stepped none signedAt token signed => ?_)
    (by simp) (serve_meets request))
  · obtain ⟨none,_,owed⟩ := owed
    cases c with
    | sign signedAt token => exact absurd owed (never v signedAt token)
    | commit => exact fun t _ signedAt token _ signed _ => absurd signed (none signedAt token)
    | _ => trivial
  · rcases local_signed stepped signed with old | rfl
    · exact none signedAt token old
    · exact never v signedAt token owed.2

theorem serve_vouches (request : Request) :
    Meets (Local cfg) (Vouches cfg request) (fun _ _ => True) (serve cfg request)
      ⟨asked,none,[],none⟩ := by
  cases request with
  | login ctx email password => exact login_vouches ctx email password
  | refreshAccessToken ctx text => exact refreshAccessToken_vouches ctx text
  | _ => exact unsigned_vouches fun v signedAt token signs => signs.2.2

end Contracts

section Runs
variable {w after : World} {base : List Row} {s : Api}
  {allow : Api → Act Request Choice Surroundings → Prop}

-- The same as it can be told later: the rows the signer had before it were
-- committed by then.
inductive Issued (cfg : Config) (w : World) (signer : Pid) (token : AccessToken) (usr : User)
    (n : Nat) : Prop where
  | login (asked : w.requests signer = some (.login ctx usr.email password))
      (found : (signer,.selected n [.user ⟨usr,none⟩]) ∈ w.journal)
      (verified : cfg.compareHashAndPassword usr.password password = true)
      (drawn : (signer,.uuid token.sessionID) ∈ w.journal)
  | refresh (asked : w.requests signer = some (.refreshAccessToken ctx text))
      (held : .session sess ∈ schema.rowsAt w.db.base w.db.log n) (same : sess.id = token.sessionID)
      (owner : sess.userID = usr.id) (hash : sess.refreshTokenHash = cfg.hashStr text)
      (unrevoked : sess.revokedAt = none)

-- A token that names a user as the tables had them, live, when it was signed.
def Genuine (cfg : Config) (w : World) (signer : Pid) (token : AccessToken) : Prop :=
  ∃ usr n, n ≤ w.db.log.length ∧
    .user ⟨usr,none⟩ ∈ schema.rowsAt w.db.base w.db.log n ∧ token.subject = usr.id ∧
      token.role = usr.role ∧ Issued cfg w signer token usr n

theorem rowsAt_grows (grows : Grows w after) (past : n ≤ w.db.log.length) :
    schema.rowsAt after.db.base after.db.log n = schema.rowsAt w.db.base w.db.log n := by
  obtain ⟨newer,log⟩ := grows.log
  rw [grows.base,log]
  clear log grows
  induction newer with
  | nil => rfl
  | cons entry rest ih =>
      rw [List.cons_append,Schema.rowsAt_cons (by simp only [List.length_append]; omega)]
      exact ih

theorem Genuine.grows (genuine : Genuine cfg w signer token) (grows : Grows w after) :
    Genuine cfg after signer token := by
  obtain ⟨usr,n,past,live,subject,role,issued⟩ := genuine
  have longer : n ≤ after.db.log.length := by
    obtain ⟨newer,log⟩ := grows.log
    rw [log,List.length_append]
    omega
  refine ⟨usr,n,longer,(rowsAt_grows grows past).symm ▸ live,subject,role,?_⟩
  cases issued with
  | login asked found verified drawn =>
      exact .login (grows.requests _ _ asked) (grows.journal found) verified (grows.journal drawn)
  | refresh asked held same owner hash unrevoked =>
      exact .refresh (grows.requests _ _ asked)
        ((rowsAt_grows grows past).symm ▸ held) same owner hash unrevoked

theorem signing_genuine (valid : WorldValid w) (asked : w.requests pid = some request)
    (signing : Signing cfg (w.view pid) signedAt token request) : Genuine cfg w pid token := by
  cases signing with
  | login found email verified drawn made =>
      subst email made
      obtain ⟨past,there⟩ := valid.selects pid _ _ (mem_own.mp found)
      exact ⟨_,_,past,there _ List.mem_cons_self,rfl,rfl,
        .login asked (mem_own.mp found) verified (mem_own.mp drawn)⟩
  | refresh running held hash unrevoked live owner made =>
      subst made
      have fits := valid.db.fits pid _ running
      refine ⟨_,w.db.log.length,Nat.le_refl _,?_,rfl,rfl,
        .refresh asked ?_ rfl owner.symm hash unrevoked⟩
      · rw [Schema.rowsAt_length]
        exact fits.current _ live
      · rw [Schema.rowsAt_length]
        exact fits.current _ held

theorem reached_genuine (keyed : schema.Keyed base) (apart : schema.Apart base)
    (path : Reached (api cfg) allow (boot base serial uuids started) s) :
    ∀ signer signedAt token, (signer,.signed signedAt token) ∈ s.shared.journal →
      Genuine cfg s.shared signer token := by
  refine reached_world (fun w => ∀ signer signedAt token,
    (signer,.signed signedAt token) ∈ w.journal →
    Genuine cfg w signer token) (by simp [boot,State.start,World.start])
    (fun {s act after} prior genuine _ turns => ?_) path
  have grows := turns_grows turns
  cases turns with
  | executed here ran =>
      intro signer signedAt token signed
      rcases executed_noted (exec_executed ran) signed with old | ⟨rfl,notes⟩
      · exact (genuine signer signedAt token old).grows grows
      · cases notes
        obtain ⟨valid,_⟩ := reached_contract keyed apart prior
        obtain ⟨request,asked,_,signing⟩ :=
          reached_owes (fun request => serve_vouches request) keyed apart prior here
        exact (signing_genuine valid asked signing).grows grows
  | _ =>
      exact fun signer signedAt token signed => (genuine signer signedAt token signed).grows grows

-- The session a signer has stored is the one it has signed for.
def Stored (w : World) : Prop :=
  ∀ entry ∈ w.db.log, ∀ signedAt token sess, (entry.owner,.signed signedAt token) ∈ w.journal →
    .session sess ∈ entry.tx.writes → sess.id = token.sessionID ∧ sess.userID = token.subject

theorem reached_stored (keyed : schema.Keyed base) (apart : schema.Apart base)
    (path : Reached (api cfg) allow (boot base serial uuids started) s) : Stored s.shared := by
  refine reached_world Stored (by simp [Stored,boot,State.start,World.start])
    (fun {s act after} prior stored _ turns => ?_) path
  cases turns with
  | @executed c rest choice reply pid after here ran =>
      obtain ⟨valid,_⟩ := reached_contract keyed apart prior
      obtain ⟨request,_,owed⟩ :=
        reached_owes (fun request => serve_vouches request) keyed apart prior here
      intro entry listed signedAt token sess signed wrote
      rcases executed_noted (exec_executed ran) signed with old | ⟨mine,notes⟩
      · rcases executed_log (exec_executed ran) with same | ⟨rfl,t,running,log⟩
        · exact stored entry (same ▸ listed) signedAt token sess old wrote
        · rw [log] at listed
          rcases List.mem_cons.mp listed with rfl | earlier
          · exact owed t running signedAt token sess (mem_own.mpr old) wrote
          · exact stored entry earlier signedAt token sess old wrote
      · cases notes
        obtain ⟨uncommitted,_⟩ := owed
        rcases executed_log (exec_executed ran) with same | ⟨other,_⟩
        · exact absurd (mem_own.mpr (mine ▸ valid.owners entry (same ▸ listed))) uncommitted
        · cases other
  | _ => exact stored

-- Where a session row comes from.
theorem session_origin {Met : List Event → Tx Row Key → List (Entry Row Key) → Prop}
    (history : History cfg w Met log) (member : .session sess ∈ schema.rows w.db.base log) :
    (∃ old, .session old ∈ w.db.base ∧ old.id = sess.id) ∨
      ∃ entry ∈ log, (entry.owner,.uuid sess.id) ∈ w.journal ∧
      ∃ new, .session new ∈ entry.tx.writes ∧ new.id = sess.id ∧ new.userID = sess.userID := by
  induction history generalizing sess with
  | start => exact .inl ⟨sess,member,rfl⟩
  | @commit older entry request events before made ih =>
      rcases session_step made.fits made.commits member with ⟨old,there,step⟩ |
        ⟨_,wrote,_,_,_,_,_,_,created⟩
      · obtain ⟨id,owner,_⟩ := step.same
        rw [id,owner]
        rcases ih there with given | ⟨login,listed,rest⟩
        · exact .inl given
        · exact .inr ⟨login,List.mem_cons_of_mem _ listed,rest⟩
      · exact .inr ⟨entry,List.mem_cons_self,mem_own.mp (made.known created.drawn),sess,wrote,rfl,
          rfl⟩

-- The session named in a token belongs to the user named in it.
theorem token_session (keyed : schema.Keyed base) (apart : schema.Apart base)
    (known : ∀ sess, .session sess ∈ base → sess.id ∈ uuids)
    (path : Reached (api cfg) allow (boot base serial uuids started) s)
    (signed : (signer,.signed signedAt token) ∈ s.shared.journal)
    (member : .session sess ∈ s.shared.committed) (same : sess.id = token.sessionID) :
    sess.userID = token.subject := by
  obtain ⟨valid,_⟩ := reached_contract keyed apart path
  have origin : s.shared.db.base = base := (reached_grows path).base
  have history := reached_commitments keyed apart path
  obtain ⟨usr,n,past,_,subject,_,issued⟩ :=
    reached_genuine keyed apart path signer signedAt token signed
  cases issued with
  | login _ _ _ drawn =>
      rcases session_origin history member with ⟨old,given,id⟩ |
        ⟨entry,listed,minted,new,wrote,id,owner⟩
      · have used := known old (origin ▸ given)
        rw [id,same] at used
        exact absurd used (reached_drawn keyed apart path signer _ drawn)
      · rw [same] at minted
        have mine := valid.uuids _ _ _ minted drawn
        exact owner.symm.trans (reached_stored keyed apart path entry listed signedAt token new
          (mine ▸ signed) wrote).2
  | refresh _ held id owner _ _ =>
      have split : Commitments cfg s.shared
          (s.shared.db.log.take (s.shared.db.log.length-n) ++ s.shared.db.log.drop
              (s.shared.db.log.length-n)) := by
        rwa [List.take_append_drop]
      obtain ⟨new,here,still,keeps,_⟩ := session_kept (origin ▸ keyed) (origin ▸ apart) split held
      rw [List.take_append_drop] at here
      have unique := (history.chronicle (origin ▸ keyed) (origin ▸ apart)).keyed
      cases unique _ here _ member (congrArg Key.session (still.trans (id.trans same.symm)))
      exact keeps.trans (owner.trans subject.symm)

-- The role in a token is the role its user has, then and ever after.
theorem token_role (keyed : schema.Keyed base) (apart : schema.Apart base)
    (path : Reached (api cfg) allow (boot base serial uuids started) s)
    (genuine : Genuine cfg s.shared signer token) :
    ∃ row, .user row ∈ s.shared.committed ∧ row.user.id = token.subject ∧
      row.user.role = token.role := by
  have origin : s.shared.db.base = base := (reached_grows path).base
  obtain ⟨usr,n,past,live,subject,role,_⟩ := genuine
  obtain ⟨row,there,identity,_⟩ :=
    history_lasting (origin ▸ keyed) (origin ▸ apart)
    (reached_commitments keyed apart path) n past _ live
  exact ⟨row,there,identity.id.trans subject.symm,identity.role.trans role.symm⟩

-- A token that Authenticate accepts was signed by a login or a refresh for a user
-- who was live at the time; it carries that user's role, and no session of the id
-- it names is anybody else's.
theorem accepted_token_genuine (keyed : schema.Keyed base) (apart : schema.Apart base)
    (known : ∀ sess, .session sess ∈ base → sess.id ∈ uuids)
    (path : Reached (api cfg) (fun _ _ => True) (boot base serial uuids started) s)
    (asked : s.shared.requests pid = some (.authenticate token))
    (accepted : s.threads pid = some (.done value)) :
    (∃ signer signedAt, (signer,.signed signedAt token) ∈ s.shared.journal ∧
      token = accessToken cfg token.subject token.sessionID token.role signedAt ∧
        Genuine cfg s.shared signer token) ∧
      (∃ row, .user row ∈ s.shared.committed ∧ row.user.id = token.subject ∧
        row.user.role = token.role) ∧
      ∀ sess, .session sess ∈ s.shared.committed → sess.id = token.sessionID →
        sess.userID = token.subject := by
  obtain ⟨signer,signedAt,signed⟩ : ∃ signer signedAt, (signer,.signed signedAt token) ∈
      s.shared.journal := by
    rcases reached_verified path pid token _ asked accepted with start | ⟨_,fails⟩ | signed
    · cases start
    · cases fails
    · exact signed
  have genuine := reached_genuine keyed apart path signer signedAt token signed
  obtain ⟨⟨userID,role,same⟩,_⟩ :=
    Watermarks.reached_stamped keyed apart path signer signedAt token signed
  have stamped : token = accessToken cfg token.subject token.sessionID token.role signedAt := by
    conv_lhs => rw [same]
    rw [same]
    rfl
  exact ⟨⟨signer,signedAt,signed,stamped,genuine⟩,token_role keyed apart path genuine,
    fun sess member same => token_session keyed apart known path signed member same⟩

namespace Controls
open RestApi.Controls

def entered : Schedule :=
  [.spawn 0 (.login asAnn "a@x" "old"),.step 0 .runs,.step 0 (.value "s1"),.step 0 (.value "t1"),
    .step 0 .runs,.step 0 .runs,.step 0 .runs,.step 0 .runs,.step 0 .runs,.step 0 .runs,
    .step 0 .runs,.spawn 1 (.authenticate pass),.step 1 .runs,.step 1 .runs,.step 1 .runs,
    .step 1 .runs]

def admitted (s : Api) : Bool := match s.threads 1 with
  | some (.done value) => value = .claims pass
  | _ => false

theorem accepted_token_genuine_login : ∃ s, Reached (api config) (fun _ _ => True) init s ∧
    admitted s = true ∧
    ∃ signer signedAt, (signer,.signed signedAt pass) ∈ s.shared.journal ∧
      pass = accessToken config pass.subject pass.sessionID pass.role signedAt ∧
        Genuine config s.shared signer pass := by
  obtain ⟨s,path,admits,asked⟩ := run_finds (api config) (fun _ _ => True) init entered
    (fun s => admitted s = true ∧ s.shared.requests 1 = some (.authenticate pass))
      (by decide +kernel)
  refine ⟨s,path,admits,?_⟩
  unfold admitted at admits
  split at admits
  · rename_i value here
    refine (accepted_token_genuine ?_ ?_ ?_ path asked here).1
    · simp [Schema.Keyed]
    · simp [Schema.Apart]
    · simp
  · cases admits

end Controls
end Runs
end RestApi.TokenOrigins
