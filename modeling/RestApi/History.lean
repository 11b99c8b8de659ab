import RestApi.UserMeets

namespace RestApi
open Pool Program RowStore

variable {cfg : Config} {w after : World} {pid : Pid}

def boot (base : List Row) (serial : Nat) (uuids : List UUID) (now : Time) : Api :=
  .start (.start base serial uuids now)

-- Every goroutine of every run keeps to its contract.
theorem reached_keeps {init s : Api} (valid : WorldValid init.shared)
    (idle : ∀ pid, init.threads pid = none) (path : Reached (api cfg) allow init s) :
    Kept WorldValid World.view (Local cfg) (duty cfg) (outcome cfg) s :=
  reached_kept (api_sound cfg) valid idle (path.mono fun _ _ _ => trivial)

theorem reached_contract {base : List Row} {s : Api} (keyed : schema.Keyed base)
    (apart : schema.Apart base) (path : Reached (api cfg) allow (boot base serial uuids now) s) :
    Kept WorldValid World.view (Local cfg) (duty cfg) (outcome cfg) s :=
  reached_keeps (start_valid keyed apart) (fun _ => rfl) path

-- The transaction a goroutine is about to commit.
def committing (s : Api) (pid : Pid) : Option (Tx Row Key) := match s.threads pid with
  | some (.call .commit _) => s.shared.db.txs pid
  | _ => none

-- Where in the commit log a request read rows outside its transaction.
def reads (events : List Event) : List Nat := events.filterMap fun
  | .selected position _ => some position
  | _ => none

theorem mem_reads {events : List Event}
    (selected : .selected position rows ∈ events) : position ∈ reads events :=
  List.mem_filterMap.mpr ⟨_,selected,rfl⟩

-- What holds of one commit against the older ones: its request owed it, on what
-- its goroutine had seen by then. `Met` is what a law asks of the steps that commit.
structure Made (cfg : Config) (w : World)
    (Met : List Event → Tx Row Key → List (Entry Row Key) → Prop) (older : List (Entry Row Key))
    (entry : Entry Row Key) (request : Request) (events : List Event) : Prop where
  fits : Fits schema w.db.base older entry.tx
  asked : w.requests entry.owner = some request
  known : events ⊆ own w.journal entry.owner
  timely : ∀ time, .clock time ∈ events → time ≤ entry.time
  selects : ∀ n rows, .selected n rows ∈ events → n ≤ older.length ∧
    ∀ row ∈ rows, row ∈ schema.rowsAt w.db.base older n
  commits : Commits cfg request entry.tx events
  met : Met events entry.tx older
  once : ∀ earlier ∈ older, earlier.owner ≠ entry.owner

-- The commits of a run.
inductive History (cfg : Config) (w : World)
    (Met : List Event → Tx Row Key → List (Entry Row Key) → Prop) :
    List (Entry Row Key) → Prop where
  | start : History cfg w Met []
  | commit (past : History cfg w Met older) (made : Made cfg w Met older entry request events) :
      History cfg w Met (entry :: older)

section Runs
variable {Met : List Event → Tx Row Key → List (Entry Row Key) → Prop}

theorem History.grows (history : History cfg w Met log) (grows : Grows w after) :
    History cfg after Met log := by
  induction history with
  | start => exact .start
  | commit _ made ih =>
      refine .commit ih {made with
        fits := grows.base ▸ made.fits
        asked := grows.requests _ _ made.asked
        known := fun _ member => grows.own _ (made.known member)
        selects := ?_}
      rw [grows.base]
      exact made.selects

theorem executed_log {c : Cmd} {reply : Option (Reply c)}
    (done : Executed cfg w pid c reply after) :
    after.db.log = w.db.log ∨ c = .commit ∧ ∃ t, w.db.txs pid = some t ∧
      after.db.log = ⟨pid,w.db.now,t⟩ :: w.db.log := by
  have swept {test change reply} (swept : Swept w pid test change reply after) :
      after.db.log = w.db.log := by
    cases swept with
    | planned ran => obtain ⟨t,_,_,_,_,_,rfl⟩ := start_parts ran; rfl
    | visited _ ran => obtain ⟨t,scan,k,rest,row,_,_,_,_,_,_,rfl⟩ := visit_parts ran; rfl
    | finished _ ran => obtain ⟨t,scan,_,_,_,_,rfl⟩ := finish_parts ran; rfl
    | aborted => rfl
  cases done with
  | lock ran => exact .inl (swept ran)
  | update ran => exact .inl (swept ran)
  | opened ran => obtain ⟨_,rfl⟩ := openTx_parts ran; exact .inl rfl
  | inserted _ ran => obtain ⟨t,_,_,_,_,_,rfl⟩ := insert_parts ran; exact .inl rfl
  | committed ran =>
      obtain ⟨t,running,_,rfl⟩ := commit_parts ran
      exact .inr ⟨rfl,t,running,rfl⟩
  | unconfirmed ran =>
      obtain ⟨t,running,_,rfl⟩ := commit_parts ran
      exact .inr ⟨rfl,t,running,rfl⟩
  | _ => exact .inl rfl

theorem executed_outbox {c : Cmd} {reply : Option (Reply c)}
    (done : Executed cfg w pid c reply after) :
    after.outbox = w.outbox ∨ ∃ message, c = .produce message := by
  cases done with
  | lock swept => cases swept <;> exact .inl rfl
  | update swept => cases swept <;> exact .inl rfl
  | produced => exact .inr ⟨_,rfl⟩
  | _ => exact .inl rfl

theorem executed_objects {c : Cmd} {reply : Option (Reply c)}
    (done : Executed cfg w pid c reply after) :
    after.objects = w.objects ∨ ∃ path, c = .put path ∧ after.objects = path :: w.objects := by
  cases done with
  | lock swept => cases swept <;> exact .inl rfl
  | update swept => cases swept <;> exact .inl rfl
  | put => exact .inr ⟨_,rfl,rfl⟩
  | _ => exact .inl rfl

theorem executed_deletions {c : Cmd} {reply : Option (Reply c)}
    (done : Executed cfg w pid c reply after) :
    after.deletions = w.deletions ∨ ∃ path, c = .asyncDelete path ∧
      after.deletions = path :: w.deletions := by
  cases done with
  | lock swept => cases swept <;> exact .inl rfl
  | update swept => cases swept <;> exact .inl rfl
  | asyncDelete => exact .inr ⟨_,rfl,rfl⟩
  | _ => exact .inl rfl

-- A marker is written by SET, by SETNX or not at all.
theorem executed_marker {c : Cmd} {reply : Option (Reply c)} (key : String)
    (done : Executed cfg w pid c reply after) :
    (∃ value ttl deadline, c = .redisSet key value ttl deadline ∧ w.db.now ≤ deadline ∧
      after.markers key = some (value,w.db.now+ttl) ∧ (pid,.marked key value) ∈ after.journal) ∨
      (∃ value ttl, c = .redisSetNX key value ttl) ∨ after.markers key = w.markers key ∧
        ∀ other value, (other,.marked key value) ∈ after.journal →
          (other,.marked key value) ∈ w.journal := by
  have quiet (unset : ∀ value ttl deadline, c ≠ .redisSet key value ttl deadline) :
      ∀ other value, (other,.marked key value) ∈ after.journal →
          (other,.marked key value) ∈ w.journal := by
    intro other value noted
    rcases executed_noted done noted with old | ⟨_,notes⟩
    · exact old
    · cases notes
      exact absurd rfl (unset _ _ _)
  have elsewhere {written value : String} {ttl : Duration} (different : written ≠ key) :
      (w.setMarker written value ttl).markers key = w.markers key := by
        simp [World.setMarker,Function.update_of_ne (Ne.symm different)]
  cases done with
  | lock swept => cases swept <;> exact .inr (.inr ⟨rfl,quiet (by rintro _ _ _ ⟨⟩)⟩)
  | update swept => cases swept <;> exact .inr (.inr ⟨rfl,quiet (by rintro _ _ _ ⟨⟩)⟩)
  | @marked deadline written value ttl timely =>
      by_cases same : written = key
      · subst same
        exact .inl ⟨value,ttl,deadline,rfl,timely,by simp [World.setMarker,World.note],
          by simp [World.note]⟩
      · exact .inr (.inr ⟨elsewhere same,quiet fun _ _ _ equal => same (by cases equal; rfl)⟩)
  | @lostMark deadline written value ttl timely =>
      by_cases same : written = key
      · subst same
        exact .inl ⟨value,ttl,deadline,rfl,timely,by simp [World.setMarker,World.note],
          by simp [World.note]⟩
      · exact .inr (.inr ⟨elsewhere same,quiet fun _ _ _ equal => same (by cases equal; rfl)⟩)
  | unmarked => exact .inr (.inr ⟨rfl,fun _ _ noted => by simpa [World.note] using noted⟩)
  | @acquired written value ttl _ =>
      by_cases same : written = key
      · subst same
        exact .inr (.inl ⟨value,ttl,rfl⟩)
      · exact .inr (.inr ⟨elsewhere same,quiet (by rintro _ _ _ ⟨⟩)⟩)
  | _ => exact .inr (.inr ⟨rfl,quiet (by rintro _ _ _ ⟨⟩)⟩)

theorem executed_committed {c : Cmd} {reply : Option (Reply c)}
    (done : Executed cfg w pid c reply after) (noted : (other,.committed) ∈ after.journal) :
    (other,.committed) ∈ w.journal ∨ other ∈ after.db.log.map Entry.owner := by
  cases done with
  | lock swept => cases swept <;> exact .inl noted
  | update swept => cases swept <;> exact .inl noted
  | committed ran =>
      obtain ⟨t,_,_,rfl⟩ := commit_parts ran
      simp only [World.note,List.mem_cons,Prod.mk.injEq] at noted
      rcases noted with ⟨rfl,_⟩ | noted
      · exact .inr List.mem_cons_self
      · exact .inl noted
  | unconfirmed ran =>
      obtain ⟨t,_,_,rfl⟩ := commit_parts ran
      simp only [World.note,List.mem_cons,Prod.mk.injEq,reduceCtorEq,and_false,false_or] at noted
      rcases noted with ⟨rfl,_⟩ | noted
      · exact .inr List.mem_cons_self
      · exact .inl noted
  | _ => exact .inl (by simpa [World.note,World.abort,World.setMarker] using noted)

theorem executed_history {c : Cmd} {reply : Option (Reply c)} (valid : WorldValid w)
    (owed : duty cfg (w.view pid) c)
    (met : ∀ t, c = .commit → w.db.txs pid = some t → Met (own w.journal pid) t w.db.log)
    (done : Executed cfg w pid c reply after) (history : History cfg w Met w.db.log) :
    History cfg after Met after.db.log := by
  have grows := executed_grows done
  rcases executed_log done with same | ⟨rfl,t,running,log⟩
  · rw [same]
    exact history.grows grows
  · obtain ⟨request,asked,_,fresh,_,t',same,commits⟩ := owed
    cases running.symm.trans same
    rw [log]
    refine .commit (history.grows grows) ⟨?_,grows.requests _ _ asked,grows.own pid,
      fun time heard => ?_,fun n rows got => ?_,commits,met t rfl running,
      fun earlier member again => ?_⟩
    · exact grows.base ▸ valid.db.fits pid t running
    · exact valid.clocks pid time (mem_own.mp heard)
    · rw [grows.base]
      exact valid.selects pid n rows (mem_own.mp got)
    · replace again : earlier.owner = pid := again
      exact fresh (mem_own.mpr (again ▸ valid.owners earlier member))

theorem reached_history {base : List Row} {s : Api} (keyed : schema.Keyed base)
    (apart : schema.Apart base)
    (met : ∀ s pid choice t, allow s (.step pid choice) → committing s pid = some t →
      Met (own s.shared.journal pid) t s.shared.db.log)
    (path : Reached (api cfg) allow (boot base serial uuids now) s) :
    History cfg s.shared Met s.shared.db.log := by
  refine reached_world (fun w => History cfg w Met w.db.log) .start
    (fun {s act after} prior history allowed turns => ?_) path
  have grows := turns_grows turns
  cases turns with
  | @executed c rest choice answer pid after here ran =>
      obtain ⟨valid,meets⟩ := reached_contract keyed apart prior
      refine executed_history valid (meets_duty (meets pid _ here)) (fun t same running => ?_)
        (exec_executed ran) history
      subst same
      exact met s pid choice t allowed (by rw [committing,here]; exact running)
  | _ => exact history.grows grows

-- The same with nothing asked of the steps.
abbrev Commitments (cfg : Config) (w : World) : List (Entry Row Key) → Prop :=
  History cfg w fun _ _ _ => True

theorem reached_commitments {base : List Row} {s : Api} (keyed : schema.Keyed base)
    (apart : schema.Apart base) (path : Reached (api cfg) allow (boot base serial uuids now) s) :
    Commitments cfg s.shared s.shared.db.log :=
  reached_history keyed apart (fun _ _ _ _ _ _ => trivial) path

theorem History.chronicle (history : History cfg w Met log) (keyed : schema.Keyed w.db.base)
    (apart : schema.Apart w.db.base) : Chronicle schema w.db.base log := by
  induction history with
  | start => exact .start keyed apart
  | commit _ made ih => exact .commit ih made.fits

theorem History.drop (history : History cfg w Met (newer ++ older)) : History cfg w Met older := by
  induction newer with
  | nil => exact history
  | cons _ _ ih =>
      cases history with
      | commit before _ => exact ih before

theorem History.split (history : History cfg w Met (newer ++ entry :: older)) :
    History cfg w Met older ∧ ∃ request events, Made cfg w Met older entry request events := by
  cases history.drop with
  | commit before made => exact ⟨before,_,_,made⟩

theorem History.made (history : History cfg w Met log) (member : entry ∈ log) :
    ∃ older request events, Made cfg w Met older entry request events := by
  obtain ⟨newer,older,rfl⟩ := List.append_of_mem member
  obtain ⟨_,request,events,made⟩ := history.split
  exact ⟨older,request,events,made⟩

-- Of two commits one is the older.
theorem History.ordered (history : History cfg w Met log) (first : a ∈ log) (second : b ∈ log) :
    a = b ∨ (∃ newer older, log = newer ++ b :: older ∧ a ∈ older) ∨ ∃ newer older, log = newer ++
      a :: older ∧ b ∈ older := by
  induction history with
  | start => cases first
  | @commit older entry request events before made ih =>
      rcases List.mem_cons.mp first with rfl | early
      · rcases List.mem_cons.mp second with rfl | early
        · exact .inl rfl
        · exact .inr (.inr ⟨[],older,rfl,early⟩)
      · rcases List.mem_cons.mp second with rfl | also
        · exact .inr (.inl ⟨[],older,rfl,early⟩)
        · rcases ih early also with same | ⟨newer,rest,rfl,there⟩ | ⟨newer,rest,rfl,there⟩
          · exact .inl same
          · exact .inr (.inl ⟨entry :: newer,rest,rfl,there⟩)
          · exact .inr (.inr ⟨entry :: newer,rest,rfl,there⟩)

theorem History.nodup (history : History cfg w Met log) : (log.map Entry.owner).Nodup := by
  induction history with
  | start => exact List.nodup_nil
  | commit _ made ih =>
      refine List.nodup_cons.mpr ⟨fun member => ?_,ih⟩
      obtain ⟨earlier,inside,same⟩ := List.mem_map.mp member
      exact made.once earlier inside same

-- A goroutine that has seen its commit go through is in the log.
theorem reached_committed {s : Api}
    (path : Reached (api cfg) allow (boot base serial uuids now) s) :
    ∀ pid, (pid,.committed) ∈ s.shared.journal → pid ∈ s.shared.db.log.map Entry.owner := by
  refine reached_world (fun w => ∀ pid, (pid,.committed) ∈ w.journal →
    pid ∈ w.db.log.map Entry.owner) (by simp [boot,State.start,World.start])
    (fun {s act after} _ listed _ turns => ?_) path
  have still : ∀ pid, (pid,.committed) ∈ s.shared.journal → pid ∈ after.db.log.map Entry.owner := by
    intro pid noted
    obtain ⟨newer,same⟩ := (turns_grows turns).log
    rw [same,List.map_append]
    exact List.mem_append_right _ (listed pid noted)
  cases turns with
  | executed _ ran =>
      exact fun pid noted => (executed_committed (exec_executed ran) noted).elim (still pid) id
  | _ => exact still

-- A service answers with success only what it has committed.
theorem reached_answered {base : List Row} {s : Api} (keyed : schema.Keyed base)
    (apart : schema.Apart base) (path : Reached (api cfg) allow (boot base serial uuids now) s)
    (finished : s.threads pid = some (.done value)) (asked : s.shared.requests pid = some request)
    (served : ∀ token, request ≠ .authenticate token) :
    ∃ entry ∈ s.shared.db.log, entry.owner = pid := by
  obtain ⟨request',same,ends⟩ := (reached_contract keyed apart path).2 pid _ finished
  cases same.symm.trans asked
  have committed : .committed ∈ (s.shared.view pid).events := by
    cases request with
    | authenticate token => exact absurd rfl (served token)
    | _ => first | exact ends.1 | exact ends
  exact List.mem_map.mp (reached_committed path pid (mem_own.mp committed))

theorem exec_token {c : Cmd} {reply : Option (Reply c)}
    (ran : exec cfg w pid c choice = some (after,reply))
    (noted : (other,.token raw) ∈ after.journal) :
    (other,.token raw) ∈ w.journal ∨ c = .opaqueToken ∧ choice = .value raw := by
  rcases executed_noted (exec_executed ran) noted with old | ⟨_,notes⟩
  · exact .inl old
  · cases notes
    cases choice <;> simp only [exec,reduceCtorEq,Option.ite_none_left_eq_some,Option.some.injEq,
      Prod.mk.injEq] at ran
    · obtain ⟨rfl,_⟩ := ran
      exact .inl noted
    · obtain ⟨_,rfl,_⟩ := ran
      simp only [World.note,List.mem_cons,Prod.mk.injEq,Event.token.injEq] at noted
      rcases noted with ⟨_,rfl⟩ | old
      · exact .inr ⟨rfl,rfl⟩
      · exact .inl old

theorem exec_uuid {c : Cmd} {reply : Option (Reply c)}
    (ran : exec cfg w pid c choice = some (after,reply))
    (noted : (other,.uuid drawn) ∈ after.journal) :
    (other,.uuid drawn) ∈ w.journal ∨ other = pid ∧ c = .newUUID ∧ choice = .value drawn := by
  rcases executed_noted (exec_executed ran) noted with old | ⟨same,notes⟩
  · exact .inl old
  · cases notes
    cases choice <;> simp only [exec,reduceCtorEq,Option.ite_none_left_eq_some,Option.some.injEq,
      Prod.mk.injEq] at ran
    · obtain ⟨rfl,_⟩ := ran
      exact .inl noted
    · obtain ⟨_,rfl,_⟩ := ran
      simp only [World.note,List.mem_cons,Prod.mk.injEq,Event.uuid.injEq] at noted
      rcases noted with ⟨_,rfl⟩ | old
      · exact .inr ⟨same,rfl,rfl⟩
      · exact .inl old

theorem executed_clock {c : Cmd} {reply : Option (Reply c)}
    (done : Executed cfg w pid c reply after) (noted : (other,.clock time) ∈ after.journal) :
    (other,.clock time) ∈ w.journal ∨ other = pid ∧ time = w.db.now := by
  rcases executed_noted done noted with old | ⟨same,notes⟩
  · exact .inl old
  · cases notes
    exact .inr ⟨same,rfl⟩

-- What every command owes of the events it notes holds of all events noted.
theorem reached_noted {base : List Row} {s : Api} (Good : World → Pid → Event → Prop)
    (keyed : schema.Keyed base) (apart : schema.Apart base)
    (stays : ∀ {w after pid event}, Grows w after → Good w pid event → Good after pid event)
    (owed : ∀ {s : Api} {pid c event}, Reached (api cfg) allow (boot base serial uuids now) s →
      WorldValid s.shared → duty cfg (s.shared.view pid) c → Notes s.shared c event →
      Good s.shared pid event) (path : Reached (api cfg) allow (boot base serial uuids now) s) :
    ∀ pid event, (pid,event) ∈ s.shared.journal → Good s.shared pid event := by
  refine reached_world (fun w => ∀ pid event, (pid,event) ∈ w.journal → Good w pid event)
    (by simp [boot,State.start,World.start]) (fun {s act after} prior good _ turns => ?_) path
  have grows := turns_grows turns
  cases turns with
  | executed here ran =>
      obtain ⟨valid,meets⟩ := reached_contract keyed apart prior
      intro other event noted
      rcases executed_noted (exec_executed ran) noted with old | ⟨rfl,notes⟩
      · exact stays grows (good other event old)
      · exact stays grows (owed prior valid (meets_duty (meets _ _ here)) notes)
  | _ => exact fun pid event noted => stays grows (good pid event noted)

-- No id is drawn that was in use from the start.
theorem reached_drawn {base : List Row} {s : Api} (keyed : schema.Keyed base)
    (apart : schema.Apart base) (path : Reached (api cfg) allow (boot base serial uuids now) s) :
    ∀ pid made, (pid,.uuid made) ∈ s.shared.journal → made ∉ uuids := by
  have noted := reached_noted (fun _ _ event => ∀ made, event = .uuid made →
    made ∉ uuids) keyed apart (fun _ good => good) ?_ path
  · exact fun pid made drawn => noted pid _ drawn made rfl
  · intro s pid c event prior _ _ notes made same used
    subst same
    cases notes with
    | uuid fresh => exact fresh ((reached_grows prior).uuids used)

-- A goroutine hears no clock earlier than its own start.
theorem reached_clocks {init s : Api} (early : floor ≤ init.shared.db.now)
    (before : ∀ time, (pid,.clock time) ∈ init.shared.journal → floor ≤ time)
    (path : Reached (api cfg) allow init s) :
    ∀ time, (pid,.clock time) ∈ s.shared.journal → floor ≤ time := by
  refine reached_world (fun w => ∀ time, (pid,.clock time) ∈ w.journal → floor ≤ time) before
    (fun {s act after} prior heard _ turns => ?_) path
  cases turns with
  | executed _ ran =>
      intro time noted
      rcases executed_clock (exec_executed ran) noted with old | ⟨_,rfl⟩
      · exact heard time old
      · exact Int.le_trans early (reached_grows prior).now
  | _ => exact heard

-- Whether a goroutine is about to draw a random token.
def drawing (s : Api) (pid : Pid) : Bool := match s.threads pid with
  | some (.call .opaqueToken _) => true
  | _ => false

-- What is asked of every draw holds of every token drawn.
theorem reached_tokens {s : Api} (Good : String → Prop)
    (drawn : ∀ s pid raw, allow s (.step pid (.value raw)) → drawing s pid = true → Good raw)
    (path : Reached (api cfg) allow (boot base serial uuids now) s) :
    ∀ pid raw, (pid,.token raw) ∈ s.shared.journal → Good raw := by
  refine reached_world (fun w => ∀ pid raw, (pid,.token raw) ∈ w.journal → Good raw)
    (by simp [boot,State.start,World.start]) (fun {s act after} _ good allowed turns => ?_) path
  cases turns with
  | executed here ran =>
      intro other raw noted
      rcases exec_token ran noted with old | ⟨rfl,rfl⟩
      · exact good other raw old
      · exact drawn s _ raw allowed (by rw [drawing,here])
  | _ => exact good

-- No transaction, open or committed, locks a row twice.
def LocksOnce (w : World) : Prop :=
  (∀ pid t, w.db.txs pid = some t → t.Once schema) ∧ ∀ entry ∈ w.db.log, entry.tx.Once schema

theorem set_once {t : Tx Row Key} (once : LocksOnce w) (changed : t.Once schema) :
    LocksOnce {w with db := w.db.set pid t} := by
  refine ⟨fun q other running => ?_,once.2⟩
  by_cases same : q = pid
  · subst same
    simp only [Store.set,Function.update_self,Option.some.injEq] at running
    exact running ▸ changed
  · simp only [Store.set,Function.update_of_ne same] at running
    exact once.1 q other running

theorem abort_once (once : LocksOnce w) (pid : Pid) : LocksOnce (w.abort pid) := by
  refine ⟨fun q other running => ?_,once.2⟩
  by_cases same : q = pid
  · subst same
    simp [World.abort,Store.rollback] at running
  · simp only [World.abort,Store.rollback,Function.update_of_ne same] at running
    exact once.1 q other running

theorem committed_once {db : Store Row Key} (once : LocksOnce w) (ran : w.db.commit pid = some db) :
    LocksOnce {w with db := db} := by
  obtain ⟨t,running,_,rfl⟩ := commit_parts ran
  refine ⟨(abort_once once pid).1,fun entry member => ?_⟩
  rcases List.mem_cons.mp member with rfl | old
  · exact once.1 pid t running
  · exact once.2 entry old

theorem executed_once {c : Cmd} {reply : Option (Reply c)} (once : LocksOnce w)
    (done : Executed cfg w pid c reply after) : LocksOnce after := by
  have swept {test change reply} (swept : Swept w pid test change reply after) :
      LocksOnce after := by
    cases swept with
    | planned ran =>
        obtain ⟨t,running,_,_,_,_,rfl⟩ := start_parts ran
        exact set_once once (once.1 pid t running)
    | visited _ ran =>
        obtain ⟨t,scan,k,rest,row,running,_,_,_,_,_,rfl⟩ := visit_parts ran
        exact set_once once (visited_once (once.1 pid t running))
    | finished _ ran =>
        obtain ⟨t,scan,running,_,_,_,rfl⟩ := finish_parts ran
        exact set_once once (once.1 pid t running)
    | aborted => exact abort_once once pid
  cases done with
  | lock ran => exact swept ran
  | update ran => exact swept ran
  | opened ran =>
      obtain ⟨_,rfl⟩ := openTx_parts ran
      exact set_once once List.nodup_nil
  | inserted _ ran =>
      obtain ⟨t,running,_,_,_,_,rfl⟩ := insert_parts ran
      exact set_once (t := t.put schema _) once (once.1 pid t running)
  | committed ran => exact committed_once once ran
  | unconfirmed ran => exact committed_once once ran
  | uninserted => exact abort_once once pid
  | uncommitted => exact abort_once once pid
  | rolledBack => exact abort_once once pid
  | _ => exact once

theorem reached_once {s : Api}
    (path : Reached (api cfg) allow (boot base serial uuids now) s) : LocksOnce s.shared := by
  refine reached_world LocksOnce (by simp [boot,State.start,World.start,LocksOnce])
    (fun _ once _ turns => ?_) path
  cases turns with
  | executed _ ran => exact executed_once once (exec_executed ran)
  | aborted => exact abort_once once _
  | _ => exact once

-- Only requests of an allowed kind are ever served.
theorem requests_kept {init s : Api} (Kind : Request → Prop)
    (allowed : ∀ s pid request, allow s (.spawn pid request) → Kind request)
    (before : ∀ pid request, init.shared.requests pid = some request → Kind request)
    (path : Reached (api cfg) allow init s) :
    ∀ pid request, s.shared.requests pid = some request → Kind request := by
  refine reached_world (fun w => ∀ pid request, w.requests pid = some request → Kind request) before
    (fun {s act after} _ kinds permitted turns => ?_) path
  cases turns with
  | @asked request spawned _ =>
      intro pid other asked
      by_cases equal : pid = spawned
      · subst equal
        simp only [Function.update_self,Option.some.injEq] at asked
        exact asked ▸ allowed s pid request permitted
      · simp only [Function.update_of_ne equal] at asked
        exact kinds pid other asked
  | executed _ ran =>
      rw [executed_requests (exec_executed ran)]
      exact kinds
  | _ => exact kinds

theorem reached_requests {s : Api} (Kind : Request → Prop)
    (allowed : ∀ s pid request, allow s (.spawn pid request) → Kind request)
    (path : Reached (api cfg) allow (boot base serial uuids now) s) :
    ∀ pid request, s.shared.requests pid = some request → Kind request :=
  requests_kept Kind allowed (by simp [boot,State.start,World.start]) path

end Runs

-- A configuration small enough to run schedules on.
namespace Controls

def config : Config where
  hashStr text := "#" ++ text
  compareHashAndPassword hash plain := hash = "$" ++ plain
  parseAddress _ := true
  toUpper text := text
  can _ _ := true
  internalMode := false
  jwtTTL := 900*second
  sessionTTL := 3600*second
  passwordRecoveryTokenTTL := 300*second
  registrationTokenTTL := 900*second
  completeRegistrationFormEndpoint := ""
  resetPasswordFormEndpoint := ""
  revocationFailClosed := true

def ann : User := ⟨"u1","Ann","a@x",none,"$old",none,none,.user,none,0,0⟩
def asAnn : Ctx := ⟨some ⟨some "u1",.user,"s0"⟩,some ⟨"ip","r1","agent"⟩⟩
def pictured : User := {ann with profilePicture := some "old.png"}
def renewed : UserRow := ⟨{ann with password := "$new",updatedAt := 1000*second},none⟩
def session : Session := ⟨"s1","u1","#rt_t1","ip","agent",0,0,4600*second,none⟩
def pass : AccessToken := accessToken config "u1" "s1" .user (1000*second)
def invitation : RegistrationToken := ⟨0,"Bob","b@x","#regt_t0",0,2000*second,none,none⟩

abbrev init : Api := boot [.user ⟨ann,none⟩] 0 ["u1"] (1000*second)
abbrev members : List Row := [.user ⟨ann,none⟩,.session session]
abbrev signedIn : Api := boot members 0 ["u1","s1"] (1000*second)

abbrev Schedule := List (Act Request Choice Surroundings)

def loggedIn : Schedule :=
  [.spawn 0 (.login asAnn "a@x" "old"),.step 0 .runs,.step 0 (.value "s1"),.step 0 (.value "t1"),
    .step 0 .runs,.step 0 .runs,.step 0 .runs,.step 0 .runs,.step 0 .runs,.step 0 .runs,
    .step 0 .runs]

def invited : Schedule :=
  [.spawn 0 (.register asAnn "Bo" "b@x"),.step 0 .runs,.step 0 (.plan []),.step 0 .runs,
    .step 0 (.plan []),.step 0 .runs,.step 0 (.value "t1"),.step 0 .runs,.step 0 .runs,.step 0 .runs,
    .step 0 .runs,.step 0 .runs]

def repictured (pid : Pid) : Schedule :=
  [.spawn pid (.changeProfilePicture asAnn "u1" ".png"),.step pid (.value "new"),.step pid .runs,
    .step pid .runs,.step pid (.plan [.user "u1"]),.step pid .next,.step pid .runs,
    .step pid (.plan [.user "u1"]),.step pid .next,.step pid .runs,.step pid .runs,.step pid .runs,
    .step pid .runs,.env (.deleted "profiles/old.png")]

end Controls
end RestApi
