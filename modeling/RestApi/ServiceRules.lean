import RestApi.Contract

namespace RestApi
open Pool Program RowStore Service

variable {cfg : Config} {duty : View → Cmd → Prop} {α : Type} {post : View → Except Err α → Prop}
  {v : View}

-- Commands for which no service request owes anything.
def Cmd.free : Cmd → Bool
  | .clock => true
  | .bcrypt _ => true
  | .select _ => true
  | .openTx => true
  | .insert _ => true
  | .rollback => true
  | .redisTTL _ => true
  | _ => false

theorem unanswered (service : ∀ token, request ≠ .authenticate token)
    (v : View) : Unanswered request v := by
  cases request <;> first | trivial | exact absurd rfl (service _)

theorem owed_free (service : ∀ token, request ≠ .authenticate token)
    (free : c.free = true) : Owed cfg request v c :=
  ⟨unanswered service v,by cases c <;> trivial⟩

theorem meets_call {c : Cmd} {next : Reply c → Service α}
    (instant : ∀ v after, ¬Local cfg v c none after) (owed : duty v c)
    (continues : ∀ reply after, Local cfg v c (some reply) after →
      Meets (Local cfg) duty post (next reply) after) :
    Meets (Local cfg) duty post (.call c next) v := by
  intro middle waited
  have still : middle = v := by
    induction waited with
    | refl => rfl
    | tail _ stepped _ => exact absurd stepped (instant _ _)
  subst still
  exact ⟨owed,continues⟩

section Commands
variable (free : ∀ v c, c.free = true → duty v c)
include free

theorem now_meets {post : View → Except Err Time → Prop}
    (read : ∀ time, v.Latest time → post (v.note (.clock time)) (.ok time)) :
    Meets (Local cfg) duty post now v := by
  refine meets_call (fun _ _ stepped => nomatch stepped) (free _ _ rfl) fun _ _ stepped => ?_
  cases stepped with | clock latest => exact read _ latest

omit free in
theorem newUUID_meets {post : View → Except Err UUID → Prop} (owed : duty v .newUUID)
    (made : ∀ drawn, drawn ≠ uuidNil → post (v.note (.uuid drawn)) (.ok drawn))
    (failed : ∀ err, post v (.error err)) : Meets (Local cfg) duty post newUUID v := by
  refine meets_call (fun _ _ stepped => nomatch stepped) owed fun _ _ stepped => ?_
  cases stepped with
  | uuid real => exact made _ real
  | noUUID => exact failed _

omit free in
theorem generateOpaqueToken_meets {post : View → Except Err String → Prop}
    (owed : duty v .opaqueToken) (failed : ∀ after err, post after (.error err))
    (made : ∀ raw, post (v.note (.token raw))
      (.ok (if label ≠ "" then label ++ "_" ++ raw else raw))) :
    Meets (Local cfg) duty post (generateOpaqueToken label) v := by
  refine meets_call (fun _ _ stepped => nomatch stepped) owed fun _ _ stepped => ?_
  cases stepped with
  | token => exact made _
  | noToken => exact failed _ _

theorem hashPassword_meets {post : View → Except Err String → Prop}
    (failed : ∀ after err, post after (.error err))
    (hashed : ∀ digest, plain.utf8ByteSize ≤ 72 → cfg.compareHashAndPassword digest plain = true →
      post v (.ok digest)) : Meets (Local cfg) duty post (hashPassword plain) v := by
  refine meets_call (fun _ _ stepped => nomatch stepped) (free _ _ rfl) fun _ _ stepped => ?_
  cases stepped with
  | hashed short verifies => exact hashed _ short verifies
  | unhashed => exact failed _ _

omit free in
theorem verifyPassword_meets {post : View → Except Err Unit → Prop}
    (right : cfg.compareHashAndPassword hashed plain = true → post v (.ok ()))
    (wrong : ∀ after err, post after (.error err)) :
    Meets (Local cfg) duty post (verifyPassword cfg plain hashed) v := by
  unfold verifyPassword
  split
  · rename_i same; exact right same
  · exact wrong _ _

-- The body runs in a transaction of its own. A transaction that fails is gone,
-- unless it was committed after all and only the confirmation is missing.
theorem transact_settles {body : Service α} (unopened : ∀ err, post v (.error err))
    (owed : ∀ began since, Meets (Local cfg) duty (fun after result => match result with
      | .ok value => duty after .commit ∧ post after.committed (.ok value) ∧
          ∀ err, post after.ended (.error err) ∧ post (after.committed.note .unconfirmed)
            (.error err)
      | .error err => post after.ended (.error err)) body (v.within (.empty began since))) :
    Meets (Local cfg) duty post (transact body) v := by
  refine meets_call (fun _ _ stepped => nomatch stepped) (free _ _ rfl) fun _ _ stepped => ?_
  cases stepped with
  | unopened => exact unopened _
  | opened =>
      refine meets_settle (meets_mono (fun _ _ owed => owed) ?_ (owed _ _))
      intro after result held
      cases result with
      | error err =>
          refine meets_call (fun _ _ stepped => nomatch stepped) (free _ _ rfl)
            fun _ _ stepped => ?_
          cases stepped
          exact held
      | ok value =>
          refine meets_call (fun _ _ stepped => nomatch stepped) held.1 fun reply _ stepped => ?_
          cases stepped with
          | uncommitted => exact (held.2.2 _).1
          | unconfirmed => exact (held.2.2 _).2
          | committed => exact held.2.1

theorem transact_meets {body : Service α} (failed : ∀ after err, post after (.error err))
    (owed : ∀ began since, Meets (Local cfg) duty (fun after result => match result with
      | .ok value => duty after .commit ∧ post after.committed (.ok value)
      | .error _ => True) body (v.within (.empty began since))) :
    Meets (Local cfg) duty post (transact body) v := by
  refine transact_settles free (failed v) fun began since =>
    meets_mono (fun _ _ owed => owed) ?_ (owed began since)
  intro after result held
  cases result with
  | error err => exact failed _ _
  | ok value => exact ⟨held.1,held.2,fun err => ⟨failed _ _,failed _ _⟩⟩

-- A read outside any transaction.
theorem selectOne_meets {pick : Row → Option α}
    (found : ∀ position row value, test row = true → pick row = some value →
      post (v.note (.selected position [row])) (.ok value))
    (absent : ∀ after, post after (.error missing))
    (refused : ∀ after err, err.isNotFound = false → post after (.error err)) :
    Meets (Local cfg) duty post (query .pool test (scanOne pick missing text)) v := by
  refine meets_call (fun _ _ stepped => nomatch stepped) (free _ _ rfl) fun _ _ stepped => ?_
  cases stepped with
  | unselected => exact refused _ _ rfl
  | @selected rows _ position passed =>
      match rows with
      | [] => exact absent _
      | [row] =>
          simp only [scanOne]
          cases picked : pick row with
          | none => exact refused _ _ rfl
          | some value => exact found position row value (passed row List.mem_cons_self) picked
      | _ :: _ :: _ => exact refused _ _ rfl

theorem insert_meets {make : Time → Nat → Row} {next : Except SqlError Row → Service α}
    {t : Tx Row Key} (running : v.tx = some t)
    (failed : ∀ after err, Meets (Local cfg) duty post (next (.error err)) after)
    (stored : ∀ serial, ¬t.holds schema (schema.key (make t.began serial)) →
      Meets (Local cfg) duty post (next (.ok (make t.began serial)))
      (v.within {t with writes := make t.began serial :: t.writes})) :
    Meets (Local cfg) duty post (.call (.insert make) next) v := by
  refine meets_call (fun _ _ stepped => nomatch stepped) (free _ _ rfl) fun _ _ stepped => ?_
  cases stepped with
  | uninserted => exact failed _ _
  | inserted same unheld =>
      cases running.symm.trans same
      exact stored _ unheld

end Commands

section Statements
variable {t : Tx Row Key} {test : Row → Bool}

theorem statement_progress {change : Option (Time → Row → Row)} {c : Cmd} (running : v.tx = some t)
    (idle : t.scan = none)
    (runs : ∀ view after, Local cfg view c none after → Statement view test change none after)
    (waited : Waits (Local cfg) c v middle) :
    ∃ next, middle = v.within next ∧ Progress schema test (change.map (· t.began)) t next := by
  induction waited with
  | refl => exact ⟨t,by rw [View.within,← running],.inl rfl⟩
  | tail _ stepped ih =>
      obtain ⟨now,rfl,sofar⟩ := ih
      cases runs _ _ stepped with
      | step same stepped =>
          cases same
          have began : now.began = t.began := by
            rcases sofar with rfl | ⟨_,scanning⟩
            · rfl
            · exact scanning.frame.1
          rw [began] at stepped
          exact ⟨_,rfl,step_progress idle sofar stepped⟩

-- A statement ends with an error, its transaction gone, or has visited all rows.
theorem statement_done {change : Option (Time → Row → Row)} {next : Tx Row Key}
    {reply : Except SqlError (List Row)} (idle : t.scan = none)
    (sofar : Progress schema test (change.map (· t.began)) t next)
    (ran : Statement (v.within next) test change (some reply) after) :
    (∃ err, reply = .error err) ∨ ∃ last scan, Ran schema test
      (change.map (· t.began)) t last scan ∧
      after = v.within last ∧ reply = .ok (World.returning change t.began scan.hits) := by
  cases ran with
  | failed => exact .inl ⟨_,rfl⟩
  | @done current scan running scanning spent keyed =>
      cases running
      rcases sofar with rfl | ⟨scan',sofar⟩
      · rw [idle] at scanning; cases scanning
      · cases sofar.scanning.symm.trans scanning
        exact .inr ⟨_,scan,⟨next,⟨sofar,spent,keyed⟩,rfl⟩,rfl,by rw [sofar.frame.1]⟩

theorem lock_meets {next : Except SqlError (List Row) → Service α} (running : v.tx = some t)
    (idle : t.scan = none)
    (owed : ∀ after, Progress schema test none t after → duty (v.within after) (.lock test))
    (failed : ∀ after err, Meets (Local cfg) duty post (next (.error err)) after)
    (done : ∀ after scan, Ran schema test none t after scan →
      Meets (Local cfg) duty post (next (.ok scan.hits)) (v.within after)) :
    Meets (Local cfg) duty post (.call (.lock test) next) v := by
  intro middle waited
  have runs : ∀ view after, Local cfg view (.lock test) none after →
    Statement view test none none after :=
    fun _ _ stepped => by cases stepped with | lock ran => exact ran
  obtain ⟨after,rfl,sofar⟩ := statement_progress running idle runs waited
  refine ⟨owed after sofar,fun reply last stepped => ?_⟩
  cases stepped with
  | lock ran =>
      rcases statement_done idle sofar ran with ⟨err,rfl⟩ | ⟨last,scan,finished,rfl,rfl⟩
      · exact failed _ err
      · exact done last scan finished

theorem update_meets {change : Time → Row → Row} {next : Except SqlError (List Row) → Service α}
    (running : v.tx = some t) (idle : t.scan = none)
    (owed : ∀ after, Progress schema test (some (change t.began)) t after →
      duty (v.within after) (.update test change))
    (failed : ∀ after err, Meets (Local cfg) duty post (next (.error err)) after)
    (done : ∀ after scan, Ran schema test (some (change t.began)) t after scan →
      Meets (Local cfg) duty post (next (.ok (scan.hits.map (change t.began)))) (v.within after)) :
    Meets (Local cfg) duty post (.call (.update test change) next) v := by
  intro middle waited
  have runs : ∀ view after, Local cfg view (.update test change) none after →
    Statement view test (some change) none after :=
    fun _ _ stepped => by cases stepped with | update ran => exact ran
  obtain ⟨after,rfl,sofar⟩ := statement_progress running idle runs waited
  refine ⟨owed after sofar,fun reply last stepped => ?_⟩
  cases stepped with
  | update ran =>
      rcases statement_done idle sofar ran with ⟨err,rfl⟩ | ⟨last,scan,finished,rfl,rfl⟩
      · exact failed _ err
      · exact done last scan finished

-- The query of one row under its lock, before the transaction writes anything.
theorem lockOne_meets {pick : Row → Option α} {make : α → Row}
    (shape : ∀ row value, test row = true → pick row = some value → row = make value)
    (running : v.tx = some t) (idle : t.scan = none) (clean : t.writes = [])
    (owed : ∀ after, Progress schema test none t after → duty (v.within after) (.lock test))
    (found : ∀ after scan value stamp, Ran schema test none t after scan → after.writes = [] →
      scan.hits = [make value] → (make value,stamp) ∈ after.locked → test (make value) = true →
      post (v.within after) (.ok value))
    (absent : ∀ after scan, Ran schema test none t after scan → after.writes = [] → scan.hits = [] →
      post (v.within after) (.error missing))
    (refused : ∀ after err, err.isNotFound = false → post after (.error err)) :
    Meets (Local cfg) duty post (query .tx test (scanOne pick missing text)) v := by
  refine lock_meets running idle owed (fun _ _ => refused _ _ rfl) fun after scan ran => ?_
  have writes : after.writes = [] := ran.reads.trans clean
  match hits : scan.hits with
  | [] => exact absent after scan ran writes hits
  | [row] =>
      simp only [scanOne]
      cases picked : pick row with
      | none => exact refused _ _ rfl
      | some value =>
          obtain ⟨passes,seen⟩ :=
            (ran.scanned (by simp [clean,Schema.keys])).hits row
            (by rw [hits]; exact List.mem_cons_self)
          cases shape row value passes picked
          obtain ⟨⟨_,stamp⟩,locked,rfl⟩ := List.mem_map.mp seen
          exact found after scan value stamp ran writes hits locked passes
  | _ :: _ :: _ => exact refused _ _ rfl

-- An UPDATE of a row locked before.
theorem updateSeen_meets {change : Time → Row → Row} {next : Except SqlError (List Row) → Service α}
    {row : Row} (running : v.tx = some t) (idle : t.scan = none) (seen : row ∈ t.seen)
    (unwritten : schema.key row ∉ schema.keys t.writes) (passes : test row = true)
    (only : ∀ other, test other = true → schema.key other = schema.key row)
    (owed : ∀ after, Progress schema test (some (change t.began)) t after →
      duty (v.within after) (.update test change))
    (failed : ∀ after err, Meets (Local cfg) duty post (next (.error err)) after)
    (done : ∀ after scan, Ran schema test (some (change t.began)) t after scan →
      after.writes = change t.began row :: t.writes →
      Meets (Local cfg) duty post (next (.ok [change t.began row])) (v.within after)) :
    Meets (Local cfg) duty post (.call (.update test change) next) v := by
  refine update_meets running idle owed failed fun after scan ran => ?_
  have hits := ran.point seen unwritten passes only
  have writes := ran.rewrites fun other found => only other found ▸ unwritten
  rw [hits] at writes ⊢
  exact done after scan ran writes

-- An UPDATE of rows the transaction has not written yet.
theorem updateAll_meets {change : Time → Row → Row} {next : Except SqlError (List Row) → Service α}
    (running : v.tx = some t) (idle : t.scan = none)
    (clear : ∀ row, test row = true → schema.key row ∉ schema.keys t.writes)
    (owed : ∀ after, Progress schema test (some (change t.began)) t after →
      duty (v.within after) (.update test change))
    (failed : ∀ after err, Meets (Local cfg) duty post (next (.error err)) after)
    (done : ∀ after scan, Ran schema test (some (change t.began)) t after scan →
      Scanned schema test after scan → after.writes = scan.hits.map (change t.began) ++ t.writes →
      Meets (Local cfg) duty post (next (.ok (scan.hits.map (change t.began)))) (v.within after)) :
    Meets (Local cfg) duty post (.call (.update test change) next) v :=
  update_meets running idle owed failed fun after scan ran => done after scan ran
    (ran.scanned clear) (ran.rewrites clear)

end Statements

section Shapes

theorem user_shape (test : User → Bool) (row : Row) (u : User) (passes : liveUser test row = true)
    (picked : row.user? = some u) : row = .user ⟨u,none⟩ := by
  cases row with
  | user row =>
      cases picked
      simp only [liveUser,Bool.and_eq_true,Option.isNone_iff_eq_none] at passes
      rw [← passes.1]
  | _ => cases picked

theorem session_shape (test : Row → Bool) (row : Row) (s : Session) (_ : test row = true)
    (picked : row.session? = some s) : row = .session s := by
  cases row <;> cases picked
  rfl

theorem recovery_shape (test : Row → Bool) (row : Row) (token : PasswordRecoveryToken)
    (_ : test row = true) (picked : row.recovery? = some token) : row = .recovery token := by
  cases row <;> cases picked
  rfl

theorem registration_shape (test : Row → Bool) (row : Row) (token : RegistrationToken)
    (_ : test row = true) (picked : row.registration? = some token) :
    row = .registration token := by
  cases row <;> cases picked
  rfl

end Shapes
end RestApi
