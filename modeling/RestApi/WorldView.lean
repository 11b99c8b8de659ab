import RestApi.Auth

namespace RestApi
open Pool Program RowStore

-- Everything one command can have done, whatever the caller was told.
inductive Swept (w : World) (pid : Pid) (test : Row → Bool) (change : Option (Time → Row → Row)) :
    Option (Except SqlError (List Row)) → World → Prop where
  | planned (ran : w.db.start schema pid test order = some db) :
      Swept w pid test change none {w with db := db}
  | visited (running : w.db.txs pid = some t)
      (ran : w.db.visit schema pid (change.map (· t.began)) = some db) :
      Swept w pid test change none {w with db := db}
  | finished (running : w.db.txs pid = some t) (ran : w.db.finish pid = some (db,hits)) :
      Swept w pid test change (some (.ok (World.returning change t.began hits))) {w with db := db}
  | aborted : Swept w pid test change (some (.error err)) (w.abort pid)

inductive Executed (cfg : Config) (w : World) (pid : Pid) :
    (c : Cmd) → Option (Reply c) → World → Prop where
  | clock : Executed cfg w pid .clock (some w.db.now) (w.note pid (.clock w.db.now))
  | uuid (fresh : drawn ∉ w.uuids) (real : drawn ≠ uuidNil) :
      Executed cfg w pid .newUUID (some (.ok drawn))
        ({w with uuids := drawn :: w.uuids}.note pid (.uuid drawn))
  | noUUID : Executed cfg w pid .newUUID (some (.error ())) w
  | token (fresh : raw ∉ w.tokens) :
      Executed cfg w pid .opaqueToken (some (.ok raw))
        ({w with tokens := raw :: w.tokens}.note pid (.token raw))
  | noToken : Executed cfg w pid .opaqueToken (some (.error ())) w
  | hashed (short : plain.utf8ByteSize ≤ 72)
      (verifies : cfg.compareHashAndPassword digest plain = true) :
      Executed cfg w pid (.bcrypt plain) (some (.ok digest)) w
  | unhashed : Executed cfg w pid (.bcrypt plain) (some (.error ())) w
  | selected : Executed cfg w pid (.select test) (some (.ok (w.db.select schema test)))
      (w.note pid (.selected w.db.log.length (w.db.select schema test)))
  | unselected : Executed cfg w pid (.select test) (some (.error .other)) w
  | opened (ran : w.db.openTx pid = some db) :
      Executed cfg w pid .openTx (some (.ok ())) {w with db := db}
  | unopened : Executed cfg w pid .openTx (some (.error .other)) w
  | lock (swept : Swept w pid test none reply after) : Executed cfg w pid (.lock test) reply after
  | update (swept : Swept w pid test (some change) reply after) :
      Executed cfg w pid (.update test change) reply after
  | inserted (running : w.db.txs pid = some t)
      (ran : w.db.insert schema pid (make t.began) = some (db,row)) :
      Executed cfg w pid (.insert make) (some (.ok row)) {w with db := db}
  | uninserted : Executed cfg w pid (.insert make) (some (.error err)) (w.abort pid)
  | committed (ran : w.db.commit pid = some db) :
      Executed cfg w pid .commit (some (.ok ())) ({w with db := db}.note pid .committed)
  | unconfirmed (ran : w.db.commit pid = some db) :
      Executed cfg w pid .commit (some (.error .other))
        (({w with db := db}.note pid .committed).note pid .unconfirmed)
  | uncommitted : Executed cfg w pid .commit (some (.error .other)) (w.abort pid)
  | rolledBack : Executed cfg w pid .rollback (some ()) (w.abort pid)
  | signed : Executed cfg w pid (.sign signedAt token) (some (.ok ()))
      (w.note pid (.signed signedAt token))
  | unsigned : Executed cfg w pid (.sign signedAt token) (some (.error ())) w
  | verified : Executed cfg w pid (.verify token) (some (w.journal.any fun entry =>
      match entry.2 with
      | .signed _ made => made = token
      | _ => false)) w
  | marked (timely : w.db.now ≤ deadline) :
      Executed cfg w pid (.redisSet key value ttl deadline) (some (.ok ()))
        ((w.setMarker key value ttl).note pid (.marked key value))
  | lostMark (timely : w.db.now ≤ deadline) :
      Executed cfg w pid (.redisSet key value ttl deadline) (some (.error ()))
        (((w.setMarker key value ttl).note pid (.marked key value)).note pid .redisFailed)
  | unmarked : Executed cfg w pid (.redisSet key value ttl deadline) (some (.error ()))
      (w.note pid .redisFailed)
  | acquired (absent : w.marker key = none) :
      Executed cfg w pid (.redisSetNX key value ttl) (some (.ok true)) (w.setMarker key value ttl)
  | unacquired : Executed cfg w pid (.redisSetNX key value ttl) (some answer) w
  | ttl : Executed cfg w pid (.redisTTL key) (some answer) w
  | fetched (timely : w.db.now ≤ deadline) :
      Executed cfg w pid (.mget keys deadline) (some (.ok (keys.map w.marker)))
        (w.note pid (.fetched w.db.now (keys.map w.marker)))
  | unfetched : Executed cfg w pid (.mget keys deadline) (some (.error ()))
      (w.note pid .redisFailed)
  | produced : Executed cfg w pid (.produce message) (some answer)
      {w with outbox := message :: w.outbox}
  | unproduced : Executed cfg w pid (.produce message) (some (.error ())) w
  | put : Executed cfg w pid (.put path) (some (.ok ()))
      ({w with objects := path :: w.objects}.note pid (.stored path))
  | unput : Executed cfg w pid (.put path) (some (.error ())) w
  | asyncDelete :
      Executed cfg w pid (.asyncDelete path) (some ())
        ({w with deletions := path :: w.deletions}.note pid (.discarded path))

variable {cfg : Config} {w after : World} {pid other : Pid}

theorem statement_swept {reply : Option (Except SqlError (List Row))}
    (ran : w.statement pid test change choice = some (after,reply)) :
    Swept w pid test change reply after := by
  cases choice with
  | plan order =>
      obtain ⟨db,started,same⟩ := Option.map_eq_some_iff.mp ran
      cases same
      exact .planned started
  | next =>
      obtain ⟨t,running,ran⟩ := Option.bind_eq_some_iff.mp ran
      obtain ⟨db,visited,same⟩ := Option.map_eq_some_iff.mp ran
      cases same
      exact .visited running visited
  | runs =>
      obtain ⟨t,running,ran⟩ := Option.bind_eq_some_iff.mp ran
      obtain ⟨⟨db,hits⟩,finished,same⟩ := Option.map_eq_some_iff.mp ran
      cases same
      exact .finished running finished
  | violates constraint =>
      simp only [World.statement,Option.ite_none_right_eq_some,Option.some.injEq,Prod.mk.injEq]
        at ran
      obtain ⟨_,rfl,rfl⟩ := ran
      exact .aborted
  | fails => cases ran; exact .aborted
  | lost => cases ran
  | value text => cases ran

theorem exec_executed {c : Cmd} {reply : Option (Reply c)}
    (ran : exec cfg w pid c choice = some (after,reply)) : Executed cfg w pid c reply after := by
  cases c with
  | lock test => exact .lock (statement_swept ran)
  | update test set => exact .update (statement_swept ran)
  | clock => cases choice <;> cases ran; exact .clock
  | newUUID =>
      cases choice <;> simp only [exec,reduceCtorEq,Option.ite_none_left_eq_some,Option.some.injEq,
        Prod.mk.injEq] at ran
      · obtain ⟨rfl,rfl⟩ := ran; exact .noUUID
      · obtain ⟨fresh,rfl,rfl⟩ := ran
        exact .uuid (fun used => fresh (.inl used)) (fun blank => fresh (.inr blank))
  | opaqueToken =>
      cases choice <;> simp only [exec,reduceCtorEq,Option.ite_none_left_eq_some,Option.some.injEq,
        Prod.mk.injEq] at ran
      · obtain ⟨rfl,rfl⟩ := ran; exact .noToken
      · obtain ⟨fresh,rfl,rfl⟩ := ran; exact .token fresh
  | bcrypt plain =>
      cases choice <;> simp only [exec,reduceCtorEq,Option.ite_none_right_eq_some,Option.some.injEq,
        Prod.mk.injEq] at ran
      · obtain ⟨rfl,rfl⟩ := ran; exact .unhashed
      · obtain ⟨⟨short,verifies⟩,rfl,rfl⟩ := ran; exact .hashed short verifies
  | select test =>
      cases choice <;> simp only [exec,reduceCtorEq,Option.some.injEq,Prod.mk.injEq] at ran
      · obtain ⟨rfl,rfl⟩ := ran; exact .selected
      · obtain ⟨rfl,rfl⟩ := ran; exact .unselected
  | openTx =>
      cases choice <;> simp only [exec,reduceCtorEq,Option.some.injEq,Prod.mk.injEq,
        Option.map_eq_some_iff] at ran
      · obtain ⟨db,opened,rfl,rfl⟩ := ran; exact .opened opened
      · obtain ⟨rfl,rfl⟩ := ran; exact .unopened
  | insert make =>
      cases choice <;> simp only [exec,reduceCtorEq,Option.some.injEq,Prod.mk.injEq,
        Option.map_eq_some_iff,Option.bind_eq_some_iff,Option.ite_none_right_eq_some] at ran
      · obtain ⟨t,running,⟨db,row⟩,inserted,rfl,rfl⟩ := ran; exact .inserted running inserted
      · obtain ⟨rfl,rfl⟩ := ran; exact .uninserted
      · obtain ⟨_,rfl,rfl⟩ := ran; exact .uninserted
  | commit =>
      cases choice <;> simp only [exec,reduceCtorEq,Option.some.injEq,Prod.mk.injEq,
        Option.map_eq_some_iff] at ran
      · obtain ⟨db,committed,rfl,rfl⟩ := ran; exact .committed committed
      · obtain ⟨db,committed,rfl,rfl⟩ := ran; exact .unconfirmed committed
      · obtain ⟨rfl,rfl⟩ := ran; exact .uncommitted
  | rollback => cases choice <;> cases ran; exact .rolledBack
  | sign signedAt token =>
      cases choice <;> cases ran
      · exact .signed
      · exact .unsigned
  | verify token => cases choice <;> cases ran; exact .verified
  | redisSet key value ttl deadline =>
      cases choice <;> simp only [exec,reduceCtorEq,Option.some.injEq,Prod.mk.injEq,
        Option.ite_none_right_eq_some] at ran
      · obtain ⟨timely,rfl,rfl⟩ := ran; exact .marked timely
      · obtain ⟨timely,rfl,rfl⟩ := ran; exact .lostMark timely
      · obtain ⟨rfl,rfl⟩ := ran; exact .unmarked
  | redisSetNX key value ttl =>
      cases choice with
      | runs =>
          simp only [exec] at ran
          split at ran
          · cases ran; exact .unacquired
          · rename_i absent
            cases ran; exact .acquired absent
      | fails => cases ran; exact .unacquired
      | _ => cases ran
  | redisTTL key => cases choice <;> cases ran <;> exact .ttl
  | mget keys deadline =>
      cases choice <;> simp only [exec,reduceCtorEq,Option.some.injEq,Prod.mk.injEq,
        Option.ite_none_right_eq_some] at ran
      · obtain ⟨timely,rfl,rfl⟩ := ran; exact .fetched timely
      · obtain ⟨rfl,rfl⟩ := ran; exact .unfetched
  | produce message =>
      cases choice <;> cases ran
      · exact .produced
      · exact .produced
      · exact .unproduced
  | put path =>
      cases choice <;> cases ran
      · exact .put
      · exact .unput
  | asyncDelete path => cases choice <;> cases ran; exact .asyncDelete

-- What a command may leave in the journal.
inductive Notes (w : World) : Cmd → Event → Prop where
  | clock : Notes w .clock (.clock w.db.now)
  | uuid (fresh : drawn ∉ w.uuids) : Notes w .newUUID (.uuid drawn)
  | token (fresh : raw ∉ w.tokens) : Notes w .opaqueToken (.token raw)
  | selected : Notes w (.select test) (.selected w.db.log.length (w.db.select schema test))
  | committed : Notes w .commit .committed
  | unconfirmed : Notes w .commit .unconfirmed
  | signed : Notes w (.sign signedAt token) (.signed signedAt token)
  | marked (timely : w.db.now ≤ deadline) :
      Notes w (.redisSet key value ttl deadline) (.marked key value)
  | unmarked : Notes w (.redisSet key value ttl deadline) .redisFailed
  | fetched (timely : w.db.now ≤ deadline) :
      Notes w (.mget keys deadline) (.fetched w.db.now (keys.map w.marker))
  | unfetched : Notes w (.mget keys deadline) .redisFailed
  | stored : Notes w (.put path) (.stored path)
  | discarded : Notes w (.asyncDelete path) (.discarded path)

theorem executed_noted {c : Cmd} {reply : Option (Reply c)}
    (done : Executed cfg w pid c reply after) (noted : (other,event) ∈ after.journal) :
    (other,event) ∈ w.journal ∨ other = pid ∧ Notes w c event := by
  have one {w' : World} {new : Event} (same : w'.journal = w.journal) (notes : Notes w c new)
      (noted : (other,event) ∈ (w'.note pid new).journal) : (other,event) ∈ w.journal ∨
          other = pid ∧ Notes w c event := by
    rcases List.mem_cons.mp noted with equal | old
    · cases equal
      exact .inr ⟨rfl,notes⟩
    · exact .inl (same ▸ old)
  have two {w' : World} {new newer : Event} (same : w'.journal = w.journal) (notes : Notes w c new)
      (also : Notes w c newer)
      (noted : (other,event) ∈ ((w'.note pid new).note pid newer).journal) :
      (other,event) ∈ w.journal ∨ other = pid ∧ Notes w c event := by
    rcases List.mem_cons.mp noted with equal | old
    · cases equal
      exact .inr ⟨rfl,also⟩
    · exact one same notes old
  cases done with
  | lock swept => cases swept <;> exact .inl noted
  | update swept => cases swept <;> exact .inl noted
  | clock => exact one rfl .clock noted
  | uuid fresh _ => exact one rfl (.uuid fresh) noted
  | token fresh => exact one rfl (.token fresh) noted
  | selected => exact one rfl .selected noted
  | committed _ => exact one rfl .committed noted
  | unconfirmed _ => exact two rfl .committed .unconfirmed noted
  | signed => exact one rfl .signed noted
  | marked timely => exact one rfl (.marked timely) noted
  | lostMark timely => exact two rfl (.marked timely) .unmarked noted
  | unmarked => exact one rfl .unmarked noted
  | fetched timely => exact one rfl (.fetched timely) noted
  | unfetched => exact one rfl .unfetched noted
  | put => exact one rfl .stored noted
  | asyncDelete => exact one rfl .discarded noted
  | _ => exact .inl noted

-- A goroutine's own part of the world: its request, its open transaction, what
-- it has noted and the transaction it has committed.
structure View where
  request : Option Request
  tx : Option (Tx Row Key)
  events : List Event
  made : Option (Tx Row Key)

def World.made (w : World) (pid : Pid) : Option (Tx Row Key) :=
  (w.db.log.find? (·.owner = pid)).map Entry.tx

def World.view (w : World) (pid : Pid) : View :=
  ⟨w.requests pid,w.db.txs pid,own w.journal pid,w.made pid⟩

namespace View

def note (v : View) (event : Event) : View := {v with events := event :: v.events}
def within (v : View) (t : Tx Row Key) : View := {v with tx := some t}
def ended (v : View) : View := {v with tx := none}
def committed (v : View) : View := {v with tx := none,events := .committed :: v.events,made := v.tx}

@[simp] theorem note_events (v : View) (event : Event) :
    (v.note event).events = event :: v.events :=
  rfl
@[simp] theorem note_tx (v : View) (event : Event) : (v.note event).tx = v.tx := rfl
@[simp] theorem within_events (v : View) (t : Tx Row Key) : (v.within t).events = v.events := rfl
@[simp] theorem within_tx (v : View) (t : Tx Row Key) : (v.within t).tx = some t := rfl
@[simp] theorem ended_events (v : View) : v.ended.events = v.events := rfl
@[simp] theorem committed_events (v : View) : v.committed.events = .committed :: v.events := rfl
@[simp] theorem note_made (v : View) (event : Event) : (v.note event).made = v.made := rfl
@[simp] theorem within_made (v : View) (t : Tx Row Key) : (v.within t).made = v.made := rfl
@[simp] theorem ended_made (v : View) : v.ended.made = v.made := rfl
@[simp] theorem committed_made (v : View) : v.committed.made = v.tx := rfl

-- An instant no earlier than anything the goroutine has seen the clock say.
def Latest (v : View) (time : Time) : Prop :=
  (∀ earlier, .clock earlier ∈ v.events → earlier ≤ time) ∧
    ∀ t, v.tx = some t → t.began ≤ time ∧ ∀ lock ∈ t.locked, lock.2 ≤ time

end View

inductive Statement (v : View) (test : Row → Bool) (change : Option (Time → Row → Row)) :
    Option (Except SqlError (List Row)) → View → Prop where
  | step (running : v.tx = some t)
      (stepped : StatementStep schema test (change.map (· t.began)) t next) :
      Statement v test change none (v.within next)
  | done (running : v.tx = some t) (scanning : t.scan = some scan) (spent : scan.rest = [])
      (keyed : schema.Keyed t.seen) :
      Statement v test change (some (.ok (World.returning change t.began scan.hits)))
        (v.within (t.finished scan))
  | failed : Statement v test change (some (.error err)) v.ended

-- What a goroutine may conclude from a reply; everything else is up to the others.
inductive Local (cfg : Config) (v : View) : (c : Cmd) → Option (Reply c) → View → Prop where
  | clock (latest : v.Latest time) : Local cfg v .clock (some time) (v.note (.clock time))
  | uuid (real : drawn ≠ uuidNil) : Local cfg v .newUUID (some (.ok drawn)) (v.note (.uuid drawn))
  | noUUID : Local cfg v .newUUID (some (.error ())) v
  | token : Local cfg v .opaqueToken (some (.ok raw)) (v.note (.token raw))
  | noToken : Local cfg v .opaqueToken (some (.error ())) v
  | hashed (short : plain.utf8ByteSize ≤ 72)
      (verifies : cfg.compareHashAndPassword digest plain = true) :
      Local cfg v (.bcrypt plain) (some (.ok digest)) v
  | unhashed : Local cfg v (.bcrypt plain) (some (.error ())) v
  | selected (passed : ∀ row ∈ rows, test row = true) :
      Local cfg v (.select test) (some (.ok rows)) (v.note (.selected position rows))
  | unselected : Local cfg v (.select test) (some (.error .other)) v
  | opened : Local cfg v .openTx (some (.ok ())) (v.within (.empty began since))
  | unopened : Local cfg v .openTx (some (.error .other)) v
  | lock (ran : Statement v test none reply next) : Local cfg v (.lock test) reply next
  | update (ran : Statement v test (some change) reply next) :
      Local cfg v (.update test change) reply next
  | inserted (running : v.tx = some t) (unheld : ¬t.holds schema (schema.key (make t.began serial)))
      : Local cfg v (.insert make) (some (.ok (make t.began serial)))
        (v.within {t with writes := make t.began serial :: t.writes})
  | uninserted : Local cfg v (.insert make) (some (.error err)) v.ended
  | committed : Local cfg v .commit (some (.ok ())) v.committed
  | unconfirmed : Local cfg v .commit (some (.error .other)) (v.committed.note .unconfirmed)
  | uncommitted : Local cfg v .commit (some (.error .other)) v.ended
  | rolledBack : Local cfg v .rollback (some ()) v.ended
  | signed : Local cfg v (.sign signedAt token) (some (.ok ())) (v.note (.signed signedAt token))
  | unsigned : Local cfg v (.sign signedAt token) (some (.error ())) v
  | verified : Local cfg v (.verify token) (some genuine) v
  | marked : Local cfg v (.redisSet key value ttl deadline) (some (.ok ()))
      (v.note (.marked key value))
  | lostMark : Local cfg v (.redisSet key value ttl deadline) (some (.error ()))
      ((v.note (.marked key value)).note .redisFailed)
  | unmarked : Local cfg v (.redisSet key value ttl deadline) (some (.error ()))
      (v.note .redisFailed)
  | acquired : Local cfg v (.redisSetNX key value ttl) (some answer) v
  | ttl : Local cfg v (.redisTTL key) (some answer) v
  | fetched : Local cfg v (.mget keys deadline) (some (.ok values)) (v.note (.fetched time values))
  | unfetched : Local cfg v (.mget keys deadline) (some (.error ())) (v.note .redisFailed)
  | produced : Local cfg v (.produce message) (some answer) v
  | put : Local cfg v (.put path) (some (.ok ())) (v.note (.stored path))
  | unput : Local cfg v (.put path) (some (.error ())) v
  | asyncDelete : Local cfg v (.asyncDelete path) (some ()) (v.note (.discarded path))

-- What holds of every world, whichever goroutines run in it.
structure WorldValid (w : World) : Prop where
  db : Valid schema w.db
  unborn : ∀ pid, w.requests pid = none → w.db.txs pid = none ∧ own w.journal pid = []
  clocks : ∀ pid time, (pid,.clock time) ∈ w.journal → time ≤ w.db.now
  selects : ∀ pid n rows, (pid,.selected n rows) ∈ w.journal →
    n ≤ w.db.log.length ∧ ∀ row ∈ rows, row ∈ schema.rowsAt w.db.base w.db.log n
  drawn : ∀ pid made, (pid,.uuid made) ∈ w.journal → made ∈ w.uuids
  minted : ∀ pid raw, (pid,.token raw) ∈ w.journal → raw ∈ w.tokens
  uuids : ∀ p q made, (p,.uuid made) ∈ w.journal → (q,.uuid made) ∈ w.journal → p = q
  tokens : ∀ p q raw, (p,.token raw) ∈ w.journal → (q,.token raw) ∈ w.journal → p = q
  owners : ∀ entry ∈ w.db.log, (entry.owner,.committed) ∈ w.journal

section Frames

theorem swept_frame {reply : Option (Except SqlError (List Row))}
    (swept : Swept w pid test change reply after) (different : other ≠ pid) :
    after.view other = w.view other := by
  cases swept with
  | planned ran =>
      obtain ⟨t,_,_,_,_,_,rfl⟩ := start_parts ran
      simp [World.view,World.made,Store.set,Function.update_of_ne different]
  | visited _ ran =>
      obtain ⟨t,scan,k,rest,row,_,_,_,_,_,_,rfl⟩ := visit_parts ran
      simp [World.view,World.made,Store.set,Function.update_of_ne different]
  | finished _ ran =>
      obtain ⟨t,scan,_,_,_,_,rfl⟩ := finish_parts ran
      simp [World.view,World.made,Store.set,Function.update_of_ne different]
  | aborted =>
      simp [World.view,World.made,World.abort,Store.rollback,Function.update_of_ne different]

theorem executed_frame {c : Cmd} {reply : Option (Reply c)}
    (done : Executed cfg w pid c reply after) (different : other ≠ pid) :
    after.view other = w.view other := by
  cases done with
  | lock swept => exact swept_frame swept different
  | update swept => exact swept_frame swept different
  | opened ran =>
      obtain ⟨_,rfl⟩ := openTx_parts ran
      simp [World.view,World.made,Function.update_of_ne different]
  | inserted _ ran =>
      obtain ⟨t,_,_,_,_,_,rfl⟩ := insert_parts ran
      simp [World.view,World.made,Store.set,Function.update_of_ne different]
  | committed ran =>
      obtain ⟨t,_,_,rfl⟩ := commit_parts ran
      simp [World.view,World.made,World.note,Function.update_of_ne different,
        own_cons_other _ _ different,different.symm]
  | unconfirmed ran =>
      obtain ⟨t,_,_,rfl⟩ := commit_parts ran
      simp [World.view,World.made,World.note,Function.update_of_ne different,
        own_cons_other _ _ different,different.symm]
  | _ =>
      simp [World.view,World.made,World.note,World.abort,World.setMarker,Store.rollback,
        Function.update_of_ne different,
      own_cons_other _ _ different]

end Frames

section Own

@[simp] theorem view_note (w : World) (pid : Pid) (event : Event) :
    (w.note pid event).view pid = (w.view pid).note event := by
  simp [World.view,World.made,World.note,View.note]

@[simp] theorem view_abort (w : World) (pid : Pid) :
    (w.abort pid).view pid = (w.view pid).ended := by
  simp [World.view,World.made,World.abort,Store.rollback,View.ended]

theorem view_set (w : World) (pid : Pid) (t : Tx Row Key) :
    ({w with db := w.db.set pid t}).view pid = (w.view pid).within t := by
  simp [World.view,World.made,Store.set,View.within]

theorem view_committed {db : Store Row Key} (ran : w.db.commit pid = some db) :
    ({w with db := db}.note pid .committed).view pid = (w.view pid).committed := by
  obtain ⟨t,running,_,rfl⟩ := commit_parts ran
  simp [World.view,World.made,World.note,View.committed,running]

theorem clock_latest (valid : WorldValid w) (pid : Pid) : (w.view pid).Latest w.db.now :=
  ⟨fun _ heard => valid.clocks pid _ (mem_own.mp heard),
    fun t running => valid.db.stamps pid t running⟩

theorem swept_statement {reply : Option (Except SqlError (List Row))} (valid : WorldValid w)
    (swept : Swept w pid test change reply after) :
    Statement (w.view pid) test change reply (after.view pid) := by
  cases swept with
  | planned ran =>
      obtain ⟨t,_,running,_⟩ := start_step none valid.db ran
      obtain ⟨t',next,same,rfl,stepped⟩ := start_step (change.map (· t.began)) valid.db ran
      cases running.symm.trans same
      rw [view_set]
      exact .step running stepped
  | visited running ran =>
      obtain ⟨t',next,same,rfl,stepped⟩ := visit_step test valid.db ran
      cases running.symm.trans same
      rw [view_set]
      exact .step running stepped
  | finished running ran =>
      obtain ⟨t',scan,same,scanning,spent,rfl,rfl⟩ := finish_parts ran
      cases running.symm.trans same
      rw [view_set]
      refine .done running scanning spent fun a first b second => ?_
      exact valid.db.chronicle.keyed a ((valid.db.fits pid _ running).current a first) b
        ((valid.db.fits pid _ running).current b second)
  | aborted => rw [view_abort]; exact .failed

theorem executed_local {c : Cmd} {reply : Option (Reply c)} (valid : WorldValid w)
    (done : Executed cfg w pid c reply after) :
    Local cfg (w.view pid) c reply (after.view pid) := by
  cases done with
  | clock => rw [view_note]; exact .clock (clock_latest valid pid)
  | uuid _ real => rw [view_note]; exact .uuid real
  | noUUID => exact .noUUID
  | token _ => rw [view_note]; exact .token
  | noToken => exact .noToken
  | hashed short verifies => exact .hashed short verifies
  | unhashed => exact .unhashed
  | selected => rw [view_note]; exact .selected fun row member => (List.mem_filter.mp member).2
  | unselected => exact .unselected
  | opened ran =>
      obtain ⟨_,rfl⟩ := openTx_parts ran
      have told : Local cfg (w.view pid) .openTx (some (.ok ()))
        ((w.view pid).within (.empty w.db.now w.db.log.length)) := .opened
      simpa [World.view,World.made,View.within] using told
  | unopened => exact .unopened
  | lock swept => exact .lock (swept_statement valid swept)
  | update swept => exact .update (swept_statement valid swept)
  | @inserted t make db row running ran =>
      obtain ⟨t',same,_,made,fresh,_,rfl⟩ := insert_parts ran
      cases running.symm.trans same
      have unwritten : schema.key row ∉ schema.keys t.writes := by
        intro written
        obtain ⟨old,member,also⟩ := Schema.mem_keys.mp written
        exact fresh (Schema.mem_keys.mpr ⟨old,Schema.mem_overlay.mpr (.inl member),also⟩)
      have put : t.put schema row = {t with writes := row :: t.writes} := by
        have others : t.writes.filter (fun old => schema.key old ≠ schema.key row) = t.writes := by
          rw [List.filter_eq_self]
          intro old member
          simpa using fun same => unwritten (Schema.mem_keys.mpr ⟨old,member,same⟩)
        rw [Tx.put,others]
      have unheld : ¬t.holds schema (schema.key row) := by
        intro held
        obtain ⟨old,seen,also⟩ := holds_seen.mp held
        have present := Schema.mem_keys.mpr ⟨old,(valid.db.fits pid t running).current old seen,
          also⟩
        exact fresh (Schema.overlay_keys t.writes present)
      subst made
      have told : Local cfg (w.view pid) (.insert make) (some (.ok (make t.began w.db.serial))) _ :=
        .inserted running unheld
      rw [← put] at told
      simpa [World.view,World.made,Store.set,View.within] using told
  | uninserted => rw [view_abort]; exact .uninserted
  | committed ran => rw [view_committed ran]; exact .committed
  | unconfirmed ran => rw [view_note,view_committed ran]; exact .unconfirmed
  | uncommitted => rw [view_abort]; exact .uncommitted
  | rolledBack => rw [view_abort]; exact .rolledBack
  | signed => rw [view_note]; exact .signed
  | unsigned => exact .unsigned
  | verified => exact .verified
  | marked _ => rw [view_note]; exact .marked
  | lostMark _ => rw [view_note,view_note]; exact .lostMark
  | unmarked => rw [view_note]; exact .unmarked
  | acquired _ => exact .acquired
  | unacquired => exact .acquired
  | ttl => exact .ttl
  | fetched _ => rw [view_note]; exact .fetched
  | unfetched => rw [view_note]; exact .unfetched
  | produced => exact .produced
  | unproduced => exact .produced
  | put => rw [view_note]; exact .put
  | unput => exact .unput
  | asyncDelete => rw [view_note]; exact .asyncDelete

end Own

end RestApi
