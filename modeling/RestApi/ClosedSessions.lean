import RestApi.RowChanges
import RestApi.Watermarks

namespace RestApi.ClosedSessions
open Pool Program RowStore Watermarks

-- A request that ends one session.
def closes (sessID : UUID) : Request → Bool
  | .logout _ target => target = sessID
  | .revokeSession _ target => target = sessID
  | _ => false

section Commits
variable {cfg : Config} {request : Request} {t : Tx Row Key} {events : List Event} {sessID : UUID}

-- It leaves the session revoked, or as dead as it found it.
theorem closing_commits (ends : closes sessID request = true)
    (commits : Commits cfg request t events) :
    ∃ sess checkedAt, .clock checkedAt ∈ events ∧ .session sess ∈ t.seen ∧ sess.id = sessID ∧
      (t.writes = [] ∧ (sess.isExpired checkedAt = true ∨ sess.revokedAt ≠ none) ∨
        ∃ revokedAt, .session (sess.revoke revokedAt) ∈ t.writes) := by
  cases commits with
  | logoutDead checked same dead writes =>
      exact ⟨_,_,checked.1,checked.seen,same.trans (of_decide_eq_true ends),
        .inl ⟨writes,dead.imp_right Option.isSome_iff_ne_none.mp⟩⟩
  | logout checked same _ writes =>
      exact ⟨_,_,checked.1,checked.seen,same.trans (of_decide_eq_true ends),
        .inr ⟨_,writes ▸ List.mem_cons_of_mem _ List.mem_cons_self⟩⟩
  | revokeSessionDead checked same _ dead writes =>
      exact ⟨_,_,checked.1,checked.seen,same.trans (of_decide_eq_true ends),
        .inl ⟨writes,dead.imp_right Option.isSome_iff_ne_none.mp⟩⟩
  | revokeSession checked same _ _ writes =>
      exact ⟨_,_,checked.1,checked.seen,same.trans (of_decide_eq_true ends),
        .inr ⟨_,writes ▸ List.mem_cons_of_mem _ List.mem_cons_self⟩⟩
  | _ => cases ends

theorem refresh_checked (commits : Commits cfg (.refreshAccessToken ctx text) t events)
    (wrote : .session new ∈ t.writes) :
    ∃ sess checkedAt, CheckedAt t events (.session sess) checkedAt ∧ sess.id = new.id ∧
      sess.revokedAt = none ∧
      sess.isExpired checkedAt = false := by
  cases commits with
  | refreshAccessToken checked _ unexpired unrevoked _ _ _ writes =>
      rw [writes,List.mem_singleton] at wrote
      cases wrote
      exact ⟨_,_,checked,rfl,unrevoked,unexpired⟩

end Commits

section Runs
variable {cfg : Config} {w : World} {Met : List Event → Tx Row Key → List (Entry Row Key) → Prop}
  {older newer log : List (Entry Row Key)} {entry : Entry Row Key} {sessID : UUID}

theorem expired_later {sess : Session} (expired : sess.isExpired early = true)
    (order : early ≤ late) : sess.isExpired late = true := by
  simp only [Session.isExpired,decide_eq_true_eq] at expired ⊢
  exact Int.lt_of_lt_of_le expired order

-- A commit that ended a session.
def Closed (w : World) (entry : Entry Row Key) (sessID : UUID) : Prop :=
  ∃ request, w.requests entry.owner = some request ∧ closes sessID request = true

-- From that commit on the session is dead.
theorem closed_dead (keyed : schema.Keyed w.db.base) (apart : schema.Apart w.db.base)
    (history : History cfg w Met log) (listed : entry ∈ log) (closed : Closed w entry sessID)
    (member : .session sess ∈ schema.rows w.db.base log) (same : sess.id = sessID) :
    (sess.revokedAt ≠ none ∨ sess.isExpired entry.time = true) ∧
      entry.tx.holds schema (.session sessID) := by
  obtain ⟨newer,older,rfl⟩ := List.append_of_mem listed
  obtain ⟨before,request,events,made⟩ := history.split
  obtain ⟨request',asked,ends⟩ := closed
  cases made.asked.symm.trans asked
  obtain ⟨found,checkedAt,heard,seen,id,left⟩ := closing_commits ends made.commits
  have holds : entry.tx.holds schema (.session sessID) :=
    holds_seen.mpr ⟨_,seen,congrArg Key.session id⟩
  refine ⟨?_,holds⟩
  have follow {old : Session} (there : .session old ∈ schema.rows w.db.base (entry :: older))
      (also : old.id = sessID) : sess.expiresAt = old.expiresAt ∧
      (sess.revokedAt = none → old.revokedAt = none) := by
    obtain ⟨new,now,id',_,expiry,alive⟩ := session_kept keyed apart history there
    cases (history.chronicle keyed apart).keyed _ now _ member
      (congrArg Key.session ((id'.trans also).trans same.symm))
    exact ⟨expiry,alive⟩
  rcases left with ⟨nothing,dead⟩ | ⟨revokedAt,wrote⟩
  · have there : .session found ∈ schema.rows w.db.base (entry :: older) := by
      rw [Schema.rows,nothing,Schema.overlay_nil]
      exact made.fits.current _ seen
    obtain ⟨expiry,alive⟩ := follow there id
    rcases dead with expired | revoked
    · have late := expired_later expired (made.timely checkedAt heard)
      rw [Session.isExpired,← expiry] at late
      exact .inr late
    · exact .inl fun unrevoked => revoked (alive unrevoked)
  · have there : .session (found.revoke revokedAt) ∈ schema.rows w.db.base (entry :: older) :=
      Schema.mem_rows_cons.mpr (.inl wrote)
    obtain ⟨_,alive⟩ := follow there id
    exact .inl fun unrevoked => nomatch alive unrevoked

-- Whoever locks the session later finds it so.
theorem closed_refuses (keyed : schema.Keyed w.db.base) (apart : schema.Apart w.db.base)
    (history : History cfg w Met log) (listed : entry ∈ log) (closed : Closed w entry sessID)
    (fits : Fits schema w.db.base log t) (checked : CheckedAt t events (.session sess) checkedAt)
    (same : sess.id = sessID) (unrevoked : sess.revokedAt = none) :
    sess.isExpired checkedAt = true := by
  subst same
  obtain ⟨dead,holds⟩ := closed_dead keyed apart history listed closed
    (fits.current _ checked.seen) rfl
  obtain ⟨_,stamp,locked,early⟩ := checked
  have order := fits.later _ locked entry listed holds
  exact expired_later (dead.resolve_left fun revoked => revoked unrevoked)
    (Int.le_trans order early)

-- A session row has an id from the start or one its login drew.
theorem session_origin (history : History cfg w Met log)
    (member : .session sess ∈ schema.rows w.db.base log) :
    (∃ old, .session old ∈ w.db.base ∧ old.id = sess.id) ∨
      ∃ login ∈ log, (login.owner,.uuid sess.id) ∈ w.journal := by
  induction history generalizing sess with
  | start => exact .inl ⟨sess,member,rfl⟩
  | @commit older entry request events before made ih =>
      rcases session_step made.fits made.commits member with ⟨old,there,step⟩ |
        ⟨_,_,_,_,_,_,_,_,created⟩
      · rw [step.same.1]
        rcases ih there with base | ⟨login,listed,drawn⟩
        · exact .inl base
        · exact .inr ⟨login,List.mem_cons_of_mem _ listed,drawn⟩
      · exact .inr ⟨entry,List.mem_cons_self,mem_own.mp (made.known created.drawn)⟩

end Runs

section Signatures
variable {cfg : Config} {base : List Row} {s : Api} {sessID : UUID}

-- No token is signed for a session that has been closed.
theorem closed_unsigned (keyed : schema.Keyed base) (apart : schema.Apart base)
    (known : ∀ sess, .session sess ∈ base → sess.id ∈ uuids)
    (path : Reached (api cfg) allow (boot base serial uuids now) s)
    (listed : entry ∈ s.shared.db.log) (closed : Closed s.shared entry token.sessionID) :
    ¬duty cfg (s.shared.view pid) (.sign signedAt token) := by
  rintro ⟨request,asked,_,_,_,signs⟩
  have origin : s.shared.db.base = base := (reached_grows path).base
  have history := reached_commitments keyed apart path
  have valid := (reached_contract keyed apart path).1
  have unique : schema.Keyed s.shared.db.base := origin ▸ keyed
  have distinct : schema.Apart s.shared.db.base := origin ▸ apart
  cases request with
  | login ctx email password =>
      -- Its id is its own; the session of that id has been stored by another.
      obtain ⟨_,uncommitted,drawn⟩ := signs
      obtain ⟨newer,older,log⟩ := List.append_of_mem listed
      obtain ⟨before,request,events,made⟩ := History.split (log ▸ history)
      obtain ⟨request',asked',ends⟩ := closed
      cases made.asked.symm.trans asked'
      obtain ⟨found,_,_,seen,id,_⟩ := closing_commits ends made.commits
      rcases session_origin before (made.fits.current _ seen) with ⟨old,first,same⟩ |
        ⟨login,early,drawn'⟩
      · rw [origin] at first
        exact reached_drawn keyed apart path pid _ (mem_own.mp drawn)
          ((same.trans id) ▸ known old first)
      · have same := valid.uuids _ _ _ (id ▸ drawn') (mem_own.mp drawn)
        have stored : login ∈ s.shared.db.log := by
          rw [log]
          exact List.mem_append_right _ (List.mem_cons_of_mem _ early)
        exact uncommitted (mem_own.mpr (same ▸ valid.owners login stored))
  | refreshAccessToken ctx text =>
      obtain ⟨t,sess,checkedAt,running,checked,id,unrevoked,unexpired⟩ := signs
      have expired := closed_refuses unique distinct history listed closed
        (valid.db.fits pid t running) checked id unrevoked
      rw [unexpired] at expired
      cases expired
  | _ => cases signs

-- Every token of a closed session was signed before it was closed.
def SignedBefore (w : World) : Prop :=
  ∀ entry ∈ w.db.log, ∀ pid signedAt token, (pid,.signed signedAt token) ∈ w.journal →
    Closed w entry token.sessionID → signedAt ≤ entry.time

theorem executed_before {c : Cmd} {reply : Option (Reply c)} {after : World}
    (keyed : schema.Keyed base) (apart : schema.Apart base)
    (known : ∀ sess, .session sess ∈ base → sess.id ∈ uuids)
    (path : Reached (api cfg) allow (boot base serial uuids now) s)
    (owed : duty cfg (s.shared.view pid) c) (done : Executed cfg s.shared pid c reply after)
    (before : SignedBefore s.shared) : SignedBefore after := by
  have requests := executed_requests done
  have stamped := reached_stamped keyed apart path
  have valid := (reached_contract keyed apart path).1
  intro entry listed other signedAt token signed closed
  rw [Closed,requests] at closed
  rcases executed_noted done signed with old | ⟨rfl,notes⟩
  · rcases executed_log done with same | ⟨_,t,_,log⟩
    · exact before entry (same ▸ listed) other signedAt token old closed
    · rw [log] at listed
      rcases List.mem_cons.mp listed with rfl | earlier
      · exact valid.clocks other signedAt (stamped other signedAt token old).2
      · exact before entry earlier other signedAt token old closed
  · cases notes
    rcases executed_log done with same | ⟨signs,_⟩
    · exact absurd owed (closed_unsigned keyed apart known path (same ▸ listed) closed)
    · cases signs

-- A request that appears later closes nothing that was committed before.
theorem closed_spawned {entry : Entry Row Key} (history : Commitments cfg w w.db.log)
    (grows : Grows w after) (listed : entry ∈ w.db.log)
    (closed : Closed after entry sessID) : Closed w entry sessID := by
  obtain ⟨_,request,_,made⟩ := history.made listed
  obtain ⟨request',asked,ends⟩ := closed
  cases (grows.requests _ _ made.asked).symm.trans asked
  exact ⟨request,made.asked,ends⟩

theorem reached_before (keyed : schema.Keyed base) (apart : schema.Apart base)
    (known : ∀ sess, .session sess ∈ base → sess.id ∈ uuids)
    (path : Reached (api cfg) allow (boot base serial uuids now) s) : SignedBefore s.shared := by
  refine reached_world SignedBefore (fun _ absent => (List.not_mem_nil absent).elim)
    (fun {s act after} prior before _ turns => ?_) path
  have grows := turns_grows turns
  cases turns with
  | asked _ =>
      exact fun entry listed other signedAt token signed closed =>
        before entry listed other signedAt token signed
        (closed_spawned (reached_commitments keyed apart prior) grows listed closed)
  | executed here ran =>
      have meets := (reached_contract keyed apart prior).2
      exact executed_before keyed apart known prior (meets_duty (meets _ _ here))
        (exec_executed ran) before
  | _ => exact before

end Signatures

section Markers
variable {cfg : Config} {base : List Row} {w : World} {s : Api} {sessID : UUID}

-- The marker of a session outlasts the tokens of the session by the skew.
def Blocked (cfg : Config) (sessID : UUID) (w : World) : Prop :=
  (∀ pid value, (pid,.marked (revokedSessionKey sessID) value) ∈ w.journal →
    w.markers (revokedSessionKey sessID) ≠ none) ∧
    ∀ value expiry, w.markers (revokedSessionKey sessID) = some (value,expiry) → value = "1" ∧
    ∃ entry ∈ w.db.log, Closed w entry sessID ∧ entry.time+revocationTTL cfg.jwtTTL ≤ expiry

theorem marks_session
    (owed : duty cfg (w.view pid) (.redisSet (revokedSessionKey sessID) value ttl deadline)) :
    ttl = revocationTTL cfg.jwtTTL ∧ value = "1" ∧ (pid,.committed) ∈ w.journal ∧
      ∃ request, w.requests pid = some request ∧ closes sessID request = true := by
  obtain ⟨request,asked,_,same,committed,marks⟩ := owed
  have elsewhere {v : View} {userID : UUID}
    (mark : Watermark v userID (revokedSessionKey sessID) value deadline) : False :=
    user_not_session userID sessID mark.1.symm
  cases request with
  | logout ctx target =>
      cases revokedSessionKey_injective marks.1
      exact ⟨same,marks.2,mem_own.mp committed,_,asked,by simp [closes]⟩
  | revokeSession ctx target =>
      cases revokedSessionKey_injective marks.1
      exact ⟨same,marks.2,mem_own.mp committed,_,asked,by simp [closes]⟩
  | changePassword _ _ _ _ => exact (elsewhere marks).elim
  | revokeUserSessions _ _ => exact (elsewhere marks).elim
  | deleteUser _ _ => exact (elsewhere marks).elim
  | resetPassword _ _ _ =>
      obtain ⟨_,mark⟩ := marks
      exact (elsewhere mark).elim
  | _ => cases marks

theorem executed_blocked {c : Cmd} {reply : Option (Reply c)} {after : World}
    (valid : WorldValid s.shared)
    (listed : ∀ pid, (pid,.committed) ∈ s.shared.journal → pid ∈ s.shared.db.log.map Entry.owner)
    (owed : duty cfg (s.shared.view pid) c) (done : Executed cfg s.shared pid c reply after)
    (blocked : Blocked cfg sessID s.shared) : Blocked cfg sessID after := by
  have grows := executed_grows done
  have still {entry : Entry Row Key} (there : entry ∈ s.shared.db.log) : entry ∈ after.db.log := by
    obtain ⟨newer,log⟩ := grows.log
    exact log ▸ List.mem_append_right _ there
  rcases executed_marker (revokedSessionKey sessID) done with ⟨value,ttl,deadline,rfl,_,written,_⟩ |
    ⟨_,_,rfl⟩ | ⟨same,quiet⟩
  · obtain ⟨rfl,rfl,committed,request,asked,ends⟩ := marks_session owed
    refine ⟨fun _ _ _ blank => (nomatch written.symm.trans blank),fun value expiry there => ?_⟩
    cases written.symm.trans there
    obtain ⟨entry,member,owner⟩ := List.mem_map.mp (listed pid committed)
    refine ⟨rfl,entry,still member,⟨request,?_,ends⟩,
      Int.add_le_add_right (valid.db.past entry member) _⟩
    exact grows.requests _ _ (owner ▸ asked)
  · obtain ⟨_,_,_,email,same⟩ := owed
    exact absurd same.symm (throttle_not_session _ sessID)
  · rw [Blocked,same]
    refine ⟨fun pid value noted => blocked.1 pid value (quiet pid value noted),
      fun value expiry there => ?_⟩
    obtain ⟨text,entry,member,⟨request,asked,ends⟩,lasts⟩ := blocked.2 value expiry there
    exact ⟨text,entry,still member,⟨request,grows.requests _ _ asked,ends⟩,lasts⟩

theorem reached_blocked (keyed : schema.Keyed base) (apart : schema.Apart base)
    (path : Reached (api cfg) allow (boot base serial uuids now) s) :
    Blocked cfg sessID s.shared := by
  have start : Blocked cfg sessID (boot base serial uuids now).shared :=
    ⟨fun _ _ absent => (List.not_mem_nil absent).elim,nofun⟩
  refine reached_world (Blocked cfg sessID) start
    (fun {s act after} prior blocked _ turns => ?_) path
  have grows := turns_grows turns
  cases turns with
  | asked _ =>
      refine ⟨blocked.1,fun value expiry there => ?_⟩
      obtain ⟨text,entry,member,⟨request,asked,ends⟩,lasts⟩ := blocked.2 value expiry there
      exact ⟨text,entry,member,⟨request,grows.requests _ _ asked,ends⟩,lasts⟩
  | executed here ran =>
      obtain ⟨valid,meets⟩ := reached_contract keyed apart prior
      exact executed_blocked valid (reached_committed prior) (meets_duty (meets _ _ here))
        (exec_executed ran) blocked
  | _ => exact blocked

end Markers

section Checks
variable {cfg : Config} {s : Api}

-- An authentication that has got anywhere has a token that was signed.
def Verified (cfg : Config) (s : Api) : Prop :=
  ∀ pid token code, s.shared.requests pid = some (.authenticate token) →
    s.threads pid = some code → code = serve cfg (.authenticate token) ∨ (∃ err, code = .fail err) ∨
      ∃ signer signedAt, (signer,.signed signedAt token) ∈ s.shared.journal

theorem verified_signed {w : World} {answer : Bool}
    (done : Executed cfg w pid (.verify token) (some answer) after) (genuine : answer = true) :
    ∃ signer signedAt, (signer,.signed signedAt token) ∈ w.journal := by
  cases done with
  | verified =>
      obtain ⟨⟨signer,event⟩,noted,same⟩ := List.any_eq_true.mp genuine
      cases event with
      | signed signedAt made =>
          cases of_decide_eq_true same
          exact ⟨signer,signedAt,noted⟩
      | _ => cases same

theorem verify_reply {next : Reply c → Service Value} {answer : Reply c}
    (here : .call c next = serve cfg (.authenticate token))
    (done : Executed cfg s.shared pid c (some answer) after) :
    (∃ err, next answer = .fail err) ∨ ∃ signer signedAt, (signer,.signed signedAt token) ∈
      s.shared.journal := by
  cases here
  cases genuine : answer with
  | false => exact .inl ⟨_,rfl⟩
  | true => exact .inr (verified_signed done genuine)

theorem reached_verified (path : Reached (api cfg) allow (boot base serial uuids now) s) :
    Verified cfg s := by
  refine path.invariant (Verified cfg) (fun _ _ _ asked => by cases asked)
    fun {s act next} _ verified _ moves => ?_
  have grows := moves_grows moves
  have later {token : AccessToken} : (∃ signer signedAt,
    (signer,.signed signedAt token) ∈ s.shared.journal) →
    ∃ signer signedAt, (signer,.signed signedAt token) ∈ next.shared.journal :=
    fun ⟨signer,signedAt,signed⟩ => ⟨signer,signedAt,grows.journal signed⟩
  cases moves with
  | @spawn spawned request shared accepted =>
      obtain ⟨_,rfl⟩ := accept_parts accepted
      intro pid token code asked here
      by_cases same : pid = spawned
      · subst same
        simp only [Function.update_self,Option.some.injEq] at asked here
        subst asked here
        exact .inl rfl
      · simp only [Function.update_of_ne same] at asked here
        exact verified pid token code asked here
  | wait _ ran =>
      intro pid token code asked here
      rw [executed_requests (exec_executed ran)] at asked
      exact (verified pid token code asked here).imp_right fun rest => rest.imp_right later
  | @reply stepped c rest choice shared answer here ran =>
      intro pid token code asked there
      rw [executed_requests (exec_executed ran)] at asked
      by_cases same : pid = stepped
      · subst same
        simp only [Function.update_self,Option.some.injEq] at there
        subst there
        rcases verified pid token _ asked here with start | ⟨_,failed⟩ | signed
        · exact .inr ((verify_reply start (exec_executed ran)).imp_right later)
        · cases failed
        · exact .inr (.inr (later signed))
      · simp only [Function.update_of_ne same] at there
        exact (verified pid token code asked there).imp_right fun rest => rest.imp_right later
  | @kill killed _ _ =>
      intro pid token code asked here
      by_cases same : pid = killed
      · subst same
        simp at here
      · simp only [Function.update_of_ne same] at here
        exact verified pid token code asked here
  | env ran =>
      rcases surroundings_parts ran with ⟨elapsed,rfl⟩ | ⟨objects,rfl⟩ <;> exact verified

end Checks

-- Whether a goroutine waits for Redis, and runs in which Redis never fails.
def asksRedis (s : Api) (pid : Pid) : Bool := match s.threads pid with
  | some (.call (.redisSet _ _ _ _) _) => true
  | some (.call (.redisSetNX _ _ _) _) => true
  | some (.call (.redisTTL _) _) => true
  | some (.call (.mget _ _) _) => true
  | _ => false

def reliably (s : Api) : Act Request Choice Surroundings → Prop
  | .step pid choice => asksRedis s pid = true → choice = .runs
  | _ => True

instance : ∀ s act, Decidable (reliably s act)
  | _,.spawn _ _ => inferInstanceAs (Decidable True)
  | _,.step _ _ => inferInstanceAs (Decidable (_ = true → _))
  | _,.kill _ => inferInstanceAs (Decidable True)
  | _,.env _ => inferInstanceAs (Decidable True)

section Reliability
variable {cfg : Config} {s : Api}

theorem exec_reliable {c : Cmd} {next : Reply c → Service Value} {reply : Option (Reply c)}
    {after : World} (here : s.threads pid = some (.call c next))
    (allowed : reliably s (.step pid choice))
    (ran : exec cfg s.shared pid c choice = some (after,reply))
    (failed : (other,.redisFailed) ∈ after.journal) : (other,.redisFailed) ∈ s.shared.journal := by
  rcases executed_noted (exec_executed ran) failed with old | ⟨_,notes⟩
  · exact old
  · cases notes with
    | unmarked =>
        cases allowed (by rw [asksRedis,here])
        simp only [exec,Option.ite_none_right_eq_some,Option.some.injEq,Prod.mk.injEq] at ran
        obtain ⟨_,rfl,_⟩ := ran
        simpa [World.note,World.setMarker] using failed
    | unfetched =>
        cases allowed (by rw [asksRedis,here])
        simp only [exec,Option.ite_none_right_eq_some,Option.some.injEq,Prod.mk.injEq] at ran
        obtain ⟨_,rfl,_⟩ := ran
        simpa [World.note] using failed

theorem reached_reliable (path : Reached (api cfg) reliably (boot base serial uuids now) s) :
    ∀ pid, (pid,.redisFailed) ∉ s.shared.journal := by
  refine reached_world (fun w => ∀ pid, (pid,.redisFailed) ∉ w.journal)
    (fun _ absent => (List.not_mem_nil absent).elim)
    (fun {s act after} _ working allowed turns => ?_) path
  cases turns with
  | executed here ran => exact fun pid failed => working pid (exec_reliable here allowed ran failed)
  | _ => exact working

end Reliability

-- What holds at `m` of a session that was closed by `s`.
structure Dead (cfg : Config) (sessID : UUID) (s m : Api) : Prop where
  -- A pause between the two clock reads of an authentication must not outlast the token
  -- by five seconds.
  unaccepted : ∀ q choice next token value, reliably m (.step q choice) →
    advance (api cfg) m (.step q choice) = some next →
    m.shared.requests q = some (.authenticate token) → token.sessionID = sessID →
    m.shared.db.now < token.expiresAt+revocationSkew → next.threads q ≠ some (.done value)
  unrefreshed : ∀ entry ∈ m.shared.db.log, entry ∉ s.shared.db.log → ∀ ctx text,
    m.shared.requests entry.owner = some (.refreshAccessToken ctx text) →
      ∀ sess, .session sess ∈ entry.tx.writes → sess.id ≠ sessID
  refreshed : ∀ pid ctx text value, m.threads pid = some (.done value) →
    m.shared.requests pid = some (.refreshAccessToken ctx text) →
      ∃ entry ∈ m.shared.db.log, entry.owner = pid

section Closing
variable {cfg : Config} {base : List Row} {s m : Api} {sessID : UUID}

-- A call that has returned nil has set the marker.
theorem closing_marked (keyed : schema.Keyed base) (apart : schema.Apart base)
    (positive : 0 < cfg.jwtTTL) (path : Reached (api cfg) reliably (boot base serial uuids now) s)
    (finished : s.threads pid = some (.done value)) (asked : s.shared.requests pid = some request)
    (ends : closes sessID request = true) :
    (pid,.marked (revokedSessionKey sessID) "1") ∈ s.shared.journal := by
  obtain ⟨request',same,done⟩ := (reached_contract keyed apart path).2 pid _ finished
  cases same.symm.trans asked
  have working := reached_reliable path pid
  cases request with
  | logout ctx target =>
      cases of_decide_eq_true ends
      rcases done.2 with marked | failed | dead
      · exact mem_own.mp marked
      · exact absurd (mem_own.mp failed) working
      · exact absurd positive (Int.not_lt.mpr dead)
  | revokeSession ctx target =>
      cases of_decide_eq_true ends
      rcases done.2 with marked | failed | dead
      · exact mem_own.mp marked
      · exact absurd (mem_own.mp failed) working
      · exact absurd positive (Int.not_lt.mpr dead)
  | _ => cases ends

-- No authentication of the session succeeds once the marker is there.
theorem marked_unaccepted (keyed : schema.Keyed base) (apart : schema.Apart base)
    (known : ∀ sess, .session sess ∈ base → sess.id ∈ uuids) (positive : 0 < cfg.jwtTTL)
    (path : Reached (api cfg) reliably (boot base serial uuids now) m)
    (marked : (pid,.marked (revokedSessionKey token.sessionID) "1") ∈ m.shared.journal)
    (allowed : reliably m (.step q choice))
    (advanced : advance (api cfg) m (.step q choice) = some next)
    (asked : m.shared.requests q = some (.authenticate token))
    (prompt : m.shared.db.now < token.expiresAt+revocationSkew) :
    next.threads q ≠ some (.done value) := by
  intro finished
  have onward := path.step allowed advanced
  have grows := moves_grows (advance_moves advanced)
  have asked' := grows.requests _ _ asked
  obtain ⟨request,same,ends⟩ := (reached_contract keyed apart onward).2 q _ finished
  cases same.symm.trans asked'
  obtain ⟨_,failed | ⟨time,values,fetched,unrevoked⟩⟩ := ends
  · exact reached_reliable onward q (mem_own.mp failed)
  · obtain rfl := fetched_parts keyed apart path asked advanced (mem_own.mp fetched)
    obtain ⟨present,lasting⟩ : Blocked cfg token.sessionID m.shared :=
      reached_blocked keyed apart path
    obtain ⟨⟨text,expiry⟩,there⟩ := Option.ne_none_iff_exists'.mp (present _ _ marked)
    obtain ⟨rfl,entry,listed,⟨request,closing,ends⟩,lasts⟩ := lasting text expiry there
    obtain ⟨signer,signedAt,signed⟩ : ∃ signer signedAt, (signer,.signed signedAt token) ∈
        next.shared.journal := by
      rcases reached_verified onward q token _ asked' finished with start | ⟨_,fails⟩ | signed
      · cases start
      · cases fails
      · exact signed
    obtain ⟨newer,log⟩ := grows.log
    have before := reached_before keyed apart known onward entry
      (log ▸ List.mem_append_right _ listed) signer signedAt token signed
      ⟨request,grows.requests _ _ closing,ends⟩
    have expires := (reached_stamped keyed apart onward signer signedAt token signed).1.expires
    rw [revocationTTL_positive positive] at lasts
    have live : m.shared.db.now < expiry := by
      dsimp only [Time,Duration,second,revocationSkew] at *
      omega
    refine unrevoked ?_
    simp [verdict_marked,marker_live there live,decideRevoked]

theorem closed_unrefreshed (keyed : schema.Keyed base) (apart : schema.Apart base)
    (path : Reached (api cfg) allow (boot base serial uuids now) m)
    (log : m.shared.db.log = newer ++ older) (closing : closer ∈ older)
    (closed : Closed m.shared closer sessID) (recent : entry ∈ newer)
    (asked : m.shared.requests entry.owner = some (.refreshAccessToken ctx text)) :
    ∀ sess, .session sess ∈ entry.tx.writes → sess.id ≠ sessID := by
  intro sess wrote same
  have origin : m.shared.db.base = base := (reached_grows path).base
  have history := reached_commitments keyed apart path
  obtain ⟨newest,middle,rfl⟩ := List.append_of_mem recent
  have parts : Commitments cfg m.shared (newest ++ entry :: (middle ++ older)) := by
    rw [log] at history
    simpa using history
  obtain ⟨before,request,events,made⟩ := parts.split
  cases made.asked.symm.trans asked
  obtain ⟨old,checkedAt,checked,id,unrevoked,unexpired⟩ := refresh_checked made.commits wrote
  have expired := closed_refuses (origin ▸ keyed) (origin ▸ apart) before
    (List.mem_append_right _ closing) closed made.fits checked (id.trans same) unrevoked
  rw [unexpired] at expired
  cases expired

end Closing

namespace Controls
open RestApi.Controls

def loggedOut : Schedule :=
  [.spawn 1 (.logout asAnn "s1"),.step 1 .runs,.step 1 (.plan [.session "s1"]),.step 1 .next,
    .step 1 .runs,.step 1 .runs,.step 1 .runs,.step 1 (.plan [.session "s1"]),.step 1 .next,
    .step 1 .runs,.step 1 .runs,.step 1 .runs,.step 1 .runs,.step 1 .runs]

def finished (s : Api) : Bool := match s.threads 1 with
  | some (.done _) => s.shared.requests 1 = some (.logout asAnn "s1")
  | _ => false

end Controls
end RestApi.ClosedSessions
