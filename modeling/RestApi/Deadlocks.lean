import Mathlib.Data.Prod.Lex
import RestApi.History
import RestApi.RowLocks

namespace RestApi.Deadlocks
open Pool Program RowStore

-- The row a goroutine's locking statement is about to lock.
def upcoming (w : World) (pid : Pid) : Option Key :=
  (w.db.txs pid).bind fun t => t.scan.bind fun scan => scan.rest.head?

def held (w : World) (pid : Pid) : List Row := ((w.db.txs pid).map Tx.seen).getD []

-- A goroutine inside a locking statement waits for the next row of it unless
-- its own transaction has locked that row before.
def waiting (s : Api) (pid : Pid) : Option Key := match s.threads pid with
  | some (.call (.lock _) _) =>
      (upcoming s.shared pid).filter fun k => k ∉ schema.keys (held s.shared pid)
  | some (.call (.update _ _) _) =>
      (upcoming s.shared pid).filter fun k => k ∉ schema.keys (held s.shared pid)
  | _ => none

def holding (s : Api) (pid : Pid) (k : Key) : Prop := k ∈ schema.keys (held s.shared pid)

-- A refresh locks the session and then the user row; these three lock the user
-- row and then the sessions.
def rotates (w : World) (pid : Pid) : Bool := match w.requests pid with
  | some (.refreshAccessToken _ _) => true
  | _ => false

def closes (w : World) (pid : Pid) : Bool := match w.requests pid with
  | some (.changePassword _ _ _ _) => true
  | some (.resetPassword _ _ _) => true
  | some (.deleteUser _ _) => true
  | _ => false

def crosses : Row → Row → Bool
  | .session sess,.user row => row.user.id = sess.userID
  | _,_ => false

def opposed (w : World) (p q : Pid) (mine theirs : Row) : Bool :=
  rotates w p && closes w q && crosses mine theirs

def listed : Request → Bool
  | .register _ _ _ => false
  | .completeRegistration _ _ _ => false
  | .recoverPassword _ _ => false
  | _ => true

-- Every statement visits its rows in the order of their ranks, and nobody locks
-- a session or user row across a transaction that goes the other way.
def inOrder {Rank : Type} [LT Rank] (rank : Key → Rank) (s : Api) :
    Act Request Choice Surroundings → Prop
  | .spawn _ request => listed request = true
  | .step _ (.plan order) => order.Pairwise (rank · < rank ·)
  | .step pid .next =>
      ∀ row ∈ s.shared.committed, upcoming s.shared pid = some row.key → ∀ q ∈ s.shared.db.active,
      ∀ other ∈ held s.shared q, opposed s.shared pid q row other = false ∧
        opposed s.shared q pid other row = false
  | _ => True

-- Everything one step can have made of the goroutine's own transaction.
inductive Touched (w : World) (pid : Pid) : Choice → Tx Row Key → Prop where
  | same (before : w.db.txs pid = some t) : Touched w pid choice t
  | opened : Touched w pid choice (.empty w.db.now w.db.log.length)
  | planned (before : w.db.txs pid = some t) :
      Touched w pid (.plan order) {t with scan := some ⟨snapshot,test,order,[],[]⟩}
  | visited (before : w.db.txs pid = some t) (scanning : t.scan = some scan)
      (next : scan.rest = row.key :: rest) :
      Touched w pid .next (t.visited schema scan rest
        (w.committed.find? (schema.key · = row.key)) w.db.now row change)
  | finished (before : w.db.txs pid = some t) : Touched w pid choice (t.finished scan)
  | put (before : w.db.txs pid = some t) (idle : t.scan = none) :
      Touched w pid choice (t.put schema row)

section Transactions
variable {cfg : Config} {w after : World} {pid : Pid} {t : Tx Row Key}

theorem set_running {changed : Tx Row Key}
    (running : (w.db.set pid changed).txs pid = some t) : changed = t := by
  simpa [Store.set] using running

theorem abort_idle : (w.abort pid).db.txs pid = none := Function.update_self ..

theorem statement_touched {reply : Option (Except SqlError (List Row))}
    (ran : w.statement pid test change choice = some (after,reply))
    (running : after.db.txs pid = some t) : Touched w pid choice t := by
  cases choice with
  | plan order =>
      obtain ⟨db,started,same⟩ := Option.map_eq_some_iff.mp ran
      cases same
      obtain ⟨before,here,_,_,_,_,rfl⟩ := start_parts started
      cases set_running running
      exact .planned here
  | next =>
      obtain ⟨_,_,ran⟩ := Option.bind_eq_some_iff.mp ran
      obtain ⟨db,visited,same⟩ := Option.map_eq_some_iff.mp ran
      cases same
      obtain ⟨before,scan,k,rest,row,here,scanning,next,found,_,_,rfl⟩ := visit_parts visited
      cases set_running running
      have key : schema.key row = k := by simpa using List.find?_some found
      subst key
      exact .visited here scanning next
  | runs =>
      obtain ⟨_,_,ran⟩ := Option.bind_eq_some_iff.mp ran
      obtain ⟨⟨db,hits⟩,finished,same⟩ := Option.map_eq_some_iff.mp ran
      cases same
      obtain ⟨before,scan,here,_,_,_,rfl⟩ := finish_parts finished
      cases set_running running
      exact .finished here
  | violates constraint =>
      obtain ⟨_,same⟩ := Option.ite_none_right_eq_some.mp ran
      cases same
      exact absurd running (abort_idle.trans_ne nofun)
  | fails => cases ran; exact absurd running (abort_idle.trans_ne nofun)
  | lost => cases ran
  | value _ => cases ran

theorem exec_touched {c : Cmd} {reply : Option (Reply c)}
    (ran : exec cfg w pid c choice = some (after,reply))
    (running : after.db.txs pid = some t) : Touched w pid choice t := by
  cases exec_executed ran with
  | lock _ => exact statement_touched ran running
  | update _ => exact statement_touched ran running
  | opened opened =>
      obtain ⟨_,rfl⟩ := openTx_parts opened
      cases set_running running
      exact .opened
  | inserted _ inserted =>
      obtain ⟨before,here,idle,_,_,_,rfl⟩ := insert_parts inserted
      cases set_running running
      exact .put here idle
  | committed committed =>
      obtain ⟨_,_,_,rfl⟩ := commit_parts committed
      exact absurd running (abort_idle.trans_ne nofun)
  | unconfirmed committed =>
      obtain ⟨_,_,_,rfl⟩ := commit_parts committed
      exact absurd running (abort_idle.trans_ne nofun)
  | uninserted => exact absurd running (abort_idle.trans_ne nofun)
  | uncommitted => exact absurd running (abort_idle.trans_ne nofun)
  | rolledBack => exact absurd running (abort_idle.trans_ne nofun)
  | _ => exact .same running

-- Where the locks of a transaction come from.
theorem touched_seen (touched : Touched w pid choice t) (member : row ∈ t.seen) :
    row ∈ held w pid ∨ choice = .next ∧ upcoming w pid = some row.key ∧ row ∈ w.committed := by
  have old {before : Tx Row Key} (running : w.db.txs pid = some before)
      (member : row ∈ before.seen) : row ∈ held w pid := by
    rw [held,running]
    exact member
  cases touched with
  | same before => exact .inl (old before member)
  | opened => cases member
  | planned before => exact .inl (old before member)
  | finished before => exact .inl (old before member)
  | put before => exact .inl (old before member)
  | @visited running scan rest version change before scanning next =>
      obtain ⟨lock,inside,rfl⟩ := List.mem_map.mp member
      have source : lock ∈ (running.lock schema
          (w.committed.find? (schema.key · = version.key)) w.db.now).locked := by
        unfold Tx.visited at inside
        dsimp only at inside
        split at inside
        · cases change <;> exact inside
        · exact inside
      rcases mem_lock source with earlier | ⟨found,_,_⟩
      · exact .inl (old before (List.mem_map_of_mem earlier))
      · have key : schema.key lock.1 = version.key := by simpa using List.find?_some found
        refine .inr ⟨rfl,?_,List.mem_of_find?_eq_some found⟩
        rw [upcoming,before,Option.bind_some,scanning,Option.bind_some,next]
        exact congrArg some key.symm

variable {Rank : Type} [LT Rank] {rank : Key → Rank}

theorem touched_rises (touched : Touched w pid choice t)
    (rises : ∀ before, w.db.txs pid = some before → before.Rises schema rank)
    (sorted : ∀ order, choice = .plan order → order.Pairwise (rank · < rank ·)) :
    t.Rises schema rank := by
  cases touched with
  | same before => exact rises _ before
  | opened => exact idle_rises rfl
  | planned before => exact planned_rises (sorted _ rfl)
  | visited before scanning next => exact visited_rises (rises _ before) scanning next
  | finished before => exact idle_rises rfl
  | put before idle => exact idle_rises idle

end Transactions

section Runs
variable {cfg : Config} {s : Api} {after : World} {pid : Pid} {t : Tx Row Key}

-- What one act makes of any transaction, and that it keeps the transaction's request.
theorem turns_touched (valid : WorldValid s.shared) (turns : Turns cfg s act after)
    (running : after.db.txs pid = some t) :
    after.requests pid = s.shared.requests pid ∧
      (s.shared.db.txs pid = some t ∨ ∃ choice, act = .step pid choice ∧
        Touched s.shared pid choice t) := by
  cases turns with
  | @asked request p unasked =>
      have different : pid ≠ p := by
        rintro rfl
        rw [(valid.unborn pid unasked).1] at running
        cases running
      exact ⟨Function.update_of_ne different _ _,.inl running⟩
  | @executed c rest choice reply p after here ran =>
      refine ⟨congrFun (executed_requests (exec_executed ran)) pid,?_⟩
      by_cases same : pid = p
      · subst same
        exact .inr ⟨choice,rfl,exec_touched ran running⟩
      · have frame := executed_frame (exec_executed ran) same
        exact .inl ((congrArg View.tx frame).symm.trans running)
  | @aborted p =>
      have different : pid ≠ p := by
        rintro rfl
        exact absurd running (abort_idle.trans_ne nofun)
      exact ⟨rfl,.inl ((congrArg View.tx (abandon_frame s.shared different)).symm.trans running)⟩
  | _ => exact ⟨rfl,.inl running⟩

theorem mem_held {w : World} : row ∈ held w pid ↔ ∃ t, w.db.txs pid = some t ∧ row ∈ t.seen := by
  cases running : w.db.txs pid <;> simp [held,running]

theorem turns_held (valid : WorldValid s.shared) (turns : Turns cfg s act after)
    (member : row ∈ held after pid) :
    after.requests pid = s.shared.requests pid ∧ (row ∈ held s.shared pid ∨
      act = .step pid .next ∧ upcoming s.shared pid = some row.key ∧ row ∈ s.shared.committed) := by
  obtain ⟨t,running,seen⟩ := mem_held.mp member
  obtain ⟨request,same | ⟨choice,rfl,touched⟩⟩ := turns_touched valid turns running
  · exact ⟨request,.inl (mem_held.mpr ⟨t,same,seen⟩)⟩
  · rcases touched_seen touched seen with old | ⟨rfl,new⟩
    · exact ⟨request,.inl old⟩
    · exact ⟨request,.inr ⟨rfl,new⟩⟩

structure Ordered {Rank : Type} [LT Rank] (rank : Key → Rank) (w : World) : Prop where
  rises : ∀ pid t, w.db.txs pid = some t → t.Rises schema rank
  uncrossed : ∀ p q, ∀ mine ∈ held w p, ∀ theirs ∈ held w q, opposed w p q mine theirs = false

variable {Rank : Type} [LT Rank] {rank : Key → Rank}

theorem turns_ordered (valid : WorldValid s.shared) (ordered : Ordered rank s.shared)
    (allowed : inOrder rank s act) (turns : Turns cfg s act after) : Ordered rank after := by
  constructor
  · intro pid t running
    obtain ⟨_,same | ⟨choice,rfl,touched⟩⟩ := turns_touched valid turns running
    · exact ordered.rises pid t same
    · refine touched_rises touched (ordered.rises pid) ?_
      rintro order rfl
      exact allowed
  · intro p q mine first theirs second
    obtain ⟨asked,first⟩ := turns_held valid turns first
    obtain ⟨other,second⟩ := turns_held valid turns second
    have same : opposed after p q mine theirs = opposed s.shared p q mine theirs := by
      rw [opposed,rotates,closes,asked,other]
      rfl
    have listed {pid : Pid} {row : Row} (member : row ∈ held s.shared pid) :
        pid ∈ s.shared.db.active := by
      obtain ⟨t,running,_⟩ := mem_held.mp member
      exact valid.db.listed pid t running
    rw [same]
    rcases first with old | ⟨rfl,coming,stored⟩
    · rcases second with also | ⟨rfl,coming,stored⟩
      · exact ordered.uncrossed p q mine old theirs also
      · exact (allowed theirs stored coming p (listed old) mine old).2
    · rcases second with also | ⟨acting,_⟩
      · exact (allowed mine stored coming q (listed also) theirs also).1
      · -- One goroutine cannot be asked for both.
        cases acting
        rw [opposed,rotates,closes]
        cases s.shared.requests p with
        | none => rfl
        | some request => cases request <;> rfl

theorem reached_ordered {base : List Row} (keyed : schema.Keyed base) (apart : schema.Apart base)
    (path : Reached (api cfg) (inOrder rank) (boot base serial uuids now) s) :
    Ordered rank s.shared := by
  have start : Ordered rank (boot base serial uuids now).shared :=
    ⟨fun _ _ running => (nomatch running),fun _ _ _ none' => absurd none' List.not_mem_nil⟩
  exact reached_world (Ordered rank) start
    (fun prior => turns_ordered (reached_contract keyed apart prior).1) path

-- What a goroutine that waits has locked so far.
theorem waiting_climbs (kept : Kept WorldValid World.view (Local cfg) (duty cfg) (outcome cfg) s)
    (stopped : waiting s pid = some k) :
    ∃ request t scan rest, s.shared.requests pid = some request ∧ s.shared.db.txs pid = some t ∧
      t.scan = some scan ∧
      scan.rest = k :: rest ∧ Climbs request t k := by
  have climbs (orderly : ∃ request, s.shared.requests pid = some request ∧
      ∀ t, s.shared.db.txs pid = some t → Orderly request t)
      (stopped : (upcoming s.shared pid).filter
      (fun k => k ∉ schema.keys (held s.shared pid)) = some k) :
      ∃ request t scan rest, s.shared.requests pid = some request ∧ s.shared.db.txs pid = some t ∧
      t.scan = some scan ∧ scan.rest = k :: rest ∧ Climbs request t k := by
    obtain ⟨request,asked,orderly⟩ := orderly
    obtain ⟨coming,unheld⟩ := Option.filter_eq_some_iff.mp stopped
    obtain ⟨t,running,coming⟩ := Option.bind_eq_some_iff.mp coming
    obtain ⟨scan,scanning,coming⟩ := Option.bind_eq_some_iff.mp coming
    obtain ⟨rest,order⟩ := List.head?_eq_some_iff.mp coming
    refine ⟨request,t,scan,rest,asked,running,scanning,order,
      orderly t running scan k rest scanning order ?_⟩
    simpa [held,running,Tx.holds] using unheld
  unfold waiting at stopped
  split at stopped
  · rename_i here
    obtain ⟨request,asked,_,orderly⟩ := meets_duty (kept.2 pid _ here)
    exact climbs ⟨request,asked,orderly⟩ stopped
  · rename_i here
    obtain ⟨request,asked,_,orderly⟩ := meets_duty (kept.2 pid _ here)
    exact climbs ⟨request,asked,orderly⟩ stopped
  · cases stopped

end Runs

section Cycles
variable {cfg : Config} {s : Api} {Rank : Type} [Preorder Rank] {rank : Key → Rank}

def height (rank : Key → Rank) (k : Key) : Nat ×ₗ Rank := toLex (k.level,rank k)

-- The last row a statement has locked is below the next one.
theorem current_below {t : Tx Row Key} {scan : Scan Row Key} (rises : t.Rises schema rank)
    (scanning : t.scan = some scan) (order : scan.rest = next :: rest)
    (level : k.level = next.level) (current : Current t k) : height rank k < height rank next := by
  obtain ⟨_,same,visited⟩ := current
  cases scanning.symm.trans same
  have below := (rises scan scanning).2 k visited next (order ▸ List.mem_cons_self)
  exact Prod.Lex.toLex_lt_toLex.mpr (.inr ⟨level,below⟩)

theorem holding_locked {t : Tx Row Key} (running : s.shared.db.txs pid = some t)
    (holds : holding s pid k) : ∃ lock ∈ t.locked, lock.1.key = k := by
  obtain ⟨row,member,rfl⟩ := Schema.mem_keys.mp holds
  obtain ⟨_,same,seen⟩ := mem_held.mp member
  cases running.symm.trans same
  obtain ⟨lock,inside,rfl⟩ := List.mem_map.mp seen
  exact ⟨lock,inside,rfl⟩

-- Whoever holds a user row and waits has it from one of the three requests that
-- go on to the sessions.
theorem user_holder (kept : Kept WorldValid World.view (Local cfg) (duty cfg) (outcome cfg) s)
    (asked : ∀ pid request, s.shared.requests pid = some request → listed request = true)
    (holds : holding s pid (.user userID)) (stuck : waiting s pid = some beyond) :
    closes s.shared pid = true := by
  obtain ⟨request,t,scan,rest,serving,running,_,_,climbs⟩ := waiting_climbs kept stuck
  obtain ⟨lock,member,key⟩ := holding_locked running holds
  have listed := asked pid request serving
  have level : lock.1.key.level = 1 := by rw [key]; rfl
  rw [closes,serving]
  cases request with
  | register => cases listed
  | completeRegistration => cases listed
  | recoverPassword => cases listed
  | changePassword => rfl
  | resetPassword => rfl
  | deleteUser => rfl
  | refreshAccessToken => exact absurd (level.symm.trans (climbs.1 lock member)) (by decide)
  | revokeUserSessions => exact absurd (level.symm.trans (climbs.2 lock member).1) (by decide)
  | _ =>
      rw [show t.locked = [] from climbs] at member
      cases member

theorem held_below (kept : Kept WorldValid World.view (Local cfg) (duty cfg) (outcome cfg) s)
    (ordered : Ordered rank s.shared)
    (asked : ∀ pid request, s.shared.requests pid = some request → listed request = true)
    (holds : holding s q k) (stopped : waiting s q = some next) (further : holding s r next)
    (stuck : waiting s r = some beyond) : height rank k < height rank next := by
  obtain ⟨request,t,scan,rest,serving,running,scanning,order,climbs⟩ := waiting_climbs kept stopped
  obtain ⟨lock,member,rfl⟩ := holding_locked running holds
  have listed := asked q request serving
  have rises := ordered.rises q t running
  -- Up to the next table, or on within the statement.
  have upwards (step : lock.1.key.level < next.level ∨ lock.1.key.level = next.level ∧
      Current t lock.1.key) : height rank lock.1.key < height rank next := by
    rcases step with lower | ⟨level,current⟩
    · exact Prod.Lex.toLex_lt_toLex.mpr (.inl lower)
    · exact current_below rises scanning order level current
  cases request with
  | register => cases listed
  | completeRegistration => cases listed
  | recoverPassword => cases listed
  | changePassword => exact upwards (climbs lock member)
  | resetPassword => exact upwards (climbs lock member)
  | deleteUser => exact upwards (climbs lock member)
  | revokeUserSessions =>
      obtain ⟨level,current⟩ := climbs.2 lock member
      exact upwards (.inr ⟨level.trans climbs.1.symm,current⟩)
  | refreshAccessToken =>
      rcases climbs.2 with ⟨level,current⟩ | ⟨sess,seen,rfl⟩
      · exact upwards (.inr ⟨(climbs.1 lock member).trans level.symm,current lock member⟩)
      · -- Downwards from a session to its user, whose row nobody may hold then.
        obtain ⟨row,theirs,key⟩ := Schema.mem_keys.mp further
        have clear := ordered.uncrossed q r (.session sess)
          (mem_held.mpr ⟨t,running,seen⟩) row theirs
        cases row with
        | user row =>
            have owner : row.user.id = sess.userID := Key.user.inj key
            simp [opposed,rotates,serving,user_holder kept asked further stuck,crosses,owner]
              at clear
        | _ => cases key
  | _ =>
      rw [show t.locked = [] from climbs] at member
      cases member

theorem transactions_never_deadlock {base : List Row} (keyed : schema.Keyed base)
    (apart : schema.Apart base)
    (path : Reached (api cfg) (inOrder rank) (boot base serial uuids now) s) :
    ¬Deadlock (waiting s) (holding s) := by
  have asked := reached_requests (listed · = true) (fun _ _ _ allowed => allowed) path
  exact no_deadlock (height rank) (held_below (reached_contract keyed apart path)
    (reached_ordered keyed apart path) asked)

end Cycles

namespace Controls
open RestApi.Controls

-- Any run of these requests, whatever the plans.
def anyOrder (_ : Api) : Act Request Choice Surroundings → Prop
  | .spawn _ request => listed request = true
  | _ => True

instance : ∀ s act, Decidable (anyOrder s act)
  | _,.spawn _ request => inferInstanceAs (Decidable (listed request = true))
  | _,.step _ _ => .isTrue trivial
  | _,.kill _ => .isTrue trivial
  | _,.env _ => .isTrue trivial

instance (rank : Key → Nat) : ∀ s act, Decidable (inOrder rank s act)
  | _,.spawn _ request => inferInstanceAs (Decidable (listed request = true))
  | _,.step _ (.plan order) => inferInstanceAs (Decidable (order.Pairwise (rank · < rank ·)))
  | s,.step pid .next =>
      inferInstanceAs (Decidable (∀ row ∈ s.shared.committed, upcoming s.shared pid = some row.key →
      ∀ q ∈ s.shared.db.active, ∀ other ∈ held s.shared q,
        opposed s.shared pid q row other = false ∧ opposed s.shared q pid other row = false))
  | _,.step _ .runs => .isTrue trivial
  | _,.step _ .lost => .isTrue trivial
  | _,.step _ .fails => .isTrue trivial
  | _,.step _ (.violates _) => .isTrue trivial
  | _,.step _ (.value _) => .isTrue trivial
  | _,.kill _ => .isTrue trivial
  | _,.env _ => .isTrue trivial

def session (id token : String) : Row :=
  .session ⟨id,"u1","#" ++ token,"ip","agent",0,0,4600*second,none⟩

abbrev init : Api :=
  boot [.user ⟨ann,none⟩,session "s1" "t1",session "s10" "t2"] 0 ["u1","s1","s10"] (1000*second)

def crossed (s : Api) (k l : Key) : Prop :=
  waiting s 0 = some k ∧ k ∈ schema.keys (held s.shared 1) ∧ waiting s 1 = some l ∧
    l ∈ schema.keys (held s.shared 0)

instance (s : Api) (k l : Key) : Decidable (crossed s k l) := inferInstanceAs (Decidable (_ ∧ _))

def refreshing : Schedule :=
  [.spawn 0 (.refreshAccessToken asAnn "t1"),.step 0 .runs,.step 0 (.plan [.session "s1"]),
    .step 0 .next,.step 0 .runs,.step 0 .runs]

def changing : Schedule :=
  [.spawn 1 (.changePassword asAnn "u1" "old" "new"),.step 1 .runs,.step 1 (.value "$new"),
    .step 1 .runs,.step 1 (.plan [.user "u1"]),.step 1 .next,.step 1 .runs]

def revoking (pid : Pid) (order : List Key) : Schedule :=
  [.spawn pid (.revokeUserSessions asAnn "u1"),.step pid .runs,.step pid (.plan order),
    .step pid .next]

-- A refresh against a password change, and two revocations with different plans.
theorem refresh_change_deadlock :
    (∃ s, Reached (api config) anyOrder init s ∧ Deadlock (waiting s) (holding s) ∧
      crossed s (.user "u1") (.session "s1")) ∧
    ∃ s, Reached (api config) anyOrder init s ∧ Deadlock (waiting s) (holding s) ∧
      crossed s (.session "s10") (.session "s1") := by
  constructor
  · obtain ⟨s,path,found⟩ := run_finds (api config) anyOrder init
      (refreshing ++ changing ++ [.step 0 (.plan [.user "u1"]),
        .step 1 (.plan [.session "s1",.session "s10"])])
      (crossed · (.user "u1") (.session "s1")) (by decide +kernel)
    exact ⟨s,path,opposed_deadlock found.1 found.2.1 found.2.2.1 found.2.2.2,found⟩
  · obtain ⟨s,path,found⟩ := run_finds (api config) anyOrder init
      (revoking 0 [.session "s1",.session "s10"] ++ revoking 1 [.session "s10",.session "s1"])
      (crossed · (.session "s10") (.session "s1")) (by decide +kernel)
    exact ⟨s,path,opposed_deadlock found.1 found.2.1 found.2.2.1 found.2.2.2,found⟩

def age : Key → Nat
  | .session id => id.length
  | _ => 0

-- A password change waits for a revocation of the same sessions.
theorem transactions_never_deadlock_queued : ∃ s, Reached (api config) (inOrder age) init s ∧
    waiting s 1 = some (.session "s1") ∧ .session "s1" ∈ schema.keys (held s.shared 0) ∧
      ¬Deadlock (waiting s) (holding s) := by
  obtain ⟨s,path,stopped,theirs⟩ := run_finds (api config) (inOrder age) init
    (revoking 0 [.session "s1",.session "s10"] ++ changing ++
      [.step 1 (.plan [.session "s1",.session "s10"])])
    (fun s => waiting s 1 = some (.session "s1") ∧ .session "s1" ∈ schema.keys (held s.shared 0))
      (by decide +kernel)
  refine ⟨s,path,stopped,theirs,transactions_never_deadlock ?_ ?_ path⟩
  · simp [Schema.Keyed,session,schema,Row.key]
  · simp [Schema.Apart,session,schema,Row.key,Row.violation]

end Controls
end RestApi.Deadlocks
