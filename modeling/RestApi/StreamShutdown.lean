import RestApi.StreamConsumer

namespace RestApi.StreamConsumer

-- Start as a state machine beside the handle goroutines it has spawned. The
-- replies of Redis, the ticker, the cancellation and the moment a goroutine ends
-- are the environment's choice.
inductive Returned where
  | groupErr
  | ctxErr
  deriving DecidableEq, Repr

inductive Phase where
  | ensureGroup
  | top
  | xautoclaim (cursor : String)
  | reclaimed (rest : List XMessage) (next : String)
  | xreadgroup
  | sleeping
  | batch (rest : List XMessage)
  | draining (left : Nat)
  | returned (why : Returned)
  deriving DecidableEq, Repr

-- `sem` is the number of tokens in the channel, `running` the goroutines that
-- have not yet popped theirs, `spawned` how many there were so far.
structure Starting where
  phase : Phase
  cancelled : Bool
  ticked : Bool
  sem : Nat
  running : List XMessage
  spawned : Nat
  deriving DecidableEq, Repr

inductive ReadReply where
  | messages (ms : List XMessage)
  | missing
  | err
  deriving DecidableEq, Repr

inductive Happening where
  | cancel
  | tick
  | finishes (i : Nat)
  | grouped (ok : Bool)
  | done
  | ticker
  | default
  | claimed (reply : Option (List XMessage × String))
  | read (reply : ReadReply)
  | wakes
  | acquires
  | proceeds
  deriving DecidableEq, Repr

def Starting.spawn (s : Starting) (m : XMessage) (phase : Phase) : Starting :=
  {s with phase,sem := s.sem + 1,running := m :: s.running,spawned := s.spawned + 1}

def Starting.goes (s : Starting) (phase : Phase) : Starting := {s with phase}

-- Of two ready cases a select takes either; its default only when none is.
def Starting.step (concurrency : Nat) (s : Starting) (h : Happening) : Option Starting :=
  match s.phase,h with
  | _,.cancel => some {s with cancelled := true}
  | _,.tick => some {s with ticked := true}
  | _,.finishes i =>
      if i < s.running.length then
        some {s with running := s.running.eraseIdx i,sem := s.sem - 1}
      else none
  | .ensureGroup,.grouped ok => some (s.goes (if ok then .top else .returned .groupErr))
  | .top,.done => if s.cancelled then some (s.goes (.returned .ctxErr)) else none
  | .top,.ticker =>
      if s.ticked then some {s with phase := .xautoclaim "0-0",ticked := false} else none
  | .top,.default => if s.cancelled || s.ticked then none else some (s.goes .xreadgroup)
  | .xautoclaim _,.claimed none => some (s.goes .xreadgroup)
  | .xautoclaim _,.claimed (some (res,next)) => some (s.goes (.reclaimed res next))
  | .reclaimed (m :: rest) next,.acquires =>
      if s.sem < concurrency then some (s.spawn m (.reclaimed rest next)) else none
  | .reclaimed (_ :: _) _,.done => if s.cancelled then some (s.goes .xreadgroup) else none
  | .reclaimed [] next,.proceeds =>
      some (s.goes (if next = "0-0" ∨ next = "0" then .xreadgroup else .xautoclaim next))
  | .xreadgroup,.read (.messages ms) => some (s.goes (.batch ms))
  | .xreadgroup,.read .missing => some (s.goes .top)
  | .xreadgroup,.read .err => some (s.goes .sleeping)
  | .sleeping,.wakes => some (s.goes .top)
  | .batch (m :: rest),.acquires =>
      if s.sem < concurrency then some (s.spawn m (.batch rest)) else none
  | .batch (_ :: _),.done => if s.cancelled then some (s.goes (.draining concurrency)) else none
  | .batch [],.proceeds => some (s.goes .top)
  | .draining (n + 1),.acquires =>
      if s.sem < concurrency then some {s with phase := .draining n,sem := s.sem + 1} else none
  | .draining 0,.proceeds => some (s.goes (.returned .ctxErr))
  | _,_ => none

def Starting.begin : Starting := ⟨.ensureGroup,false,false,0,[],0⟩

-- The exit at the top of the loop does not drain. It is ruled out once a
-- goroutine has been spawned.
def Starting.Drains (s : Starting) (h : Happening) : Prop :=
  s.phase = .top → h = .done → s.spawned = 0

instance (s : Starting) (h : Happening) : Decidable (s.Drains h) :=
  inferInstanceAs (Decidable (_ → _ → _))

inductive Starting.Reached (concurrency : Nat)
    (allow : Starting → Happening → Prop) : Starting → Prop where
  | start : Reached concurrency allow .begin
  | step : Reached concurrency allow s → allow s h → s.step concurrency h = some next →
      Reached concurrency allow next

def Starting.replay (concurrency : Nat) (allow : Starting → Happening → Prop)
    [∀ s h, Decidable (allow s h)] (s : Starting) : List Happening → Option Starting
  | [] => some s
  | h :: rest =>
      if allow s h then (s.step concurrency h).bind fun next =>
        replay concurrency allow next rest else none

namespace Starting
variable {concurrency : Nat} {allow : Starting → Happening → Prop} [∀ s h, Decidable (allow s h)]

theorem replay_reached (path : Reached concurrency allow s)
    (ran : s.replay concurrency allow acts = some last) : Reached concurrency allow last := by
  induction acts generalizing s with
  | nil =>
      cases ran
      exact path
  | cons h rest ih =>
      unfold replay at ran
      split at ran
      · rename_i allowed
        obtain ⟨next,moved,ran⟩ := Option.bind_eq_some_iff.mp ran
        exact ih (.step path allowed moved) ran
      · cases ran

-- Neither draining nor returned after it.
def looping : Phase → Bool
  | .draining _ => false
  | .returned .ctxErr => false
  | _ => true

-- What Start may do next to its semaphore and its goroutines.
inductive Stepped (concurrency : Nat) (s : Starting) (h : Happening) : Starting → Prop where
  | flags (cancelled ticked : Bool) : Stepped concurrency s h {s with cancelled,ticked}
  | finishes (i : Nat) (inside : i < s.running.length) :
      Stepped concurrency s h {s with running := s.running.eraseIdx i,sem := s.sem - 1}
  | goes (phase : Phase) (ticked : Bool) (before : looping s.phase) (after : looping phase) :
      Stepped concurrency s h {s with phase,ticked}
  | exits (top : s.phase = .top) (done : h = .done) :
      Stepped concurrency s h (s.goes (.returned .ctxErr))
  | spawns (m : XMessage) (phase : Phase) (room : s.sem < concurrency) (before : looping s.phase)
      (after : looping phase) : Stepped concurrency s h (s.spawn m phase)
  | drains (before : looping s.phase) : Stepped concurrency s h (s.goes (.draining concurrency))
  | fills (n : Nat) (draining : s.phase = .draining (n + 1)) (room : s.sem < concurrency) :
      Stepped concurrency s h {s with phase := .draining n,sem := s.sem + 1}
  | leaves (filled : s.phase = .draining 0) : Stepped concurrency s h (s.goes (.returned .ctxErr))

theorem guarded {p : Prop} [Decidable p] {t next : Starting}
    (moved : (if p then some t else none) = some next) : p ∧ t = next := by
  split at moved
  · rename_i held
    exact ⟨held,Option.some.inj moved⟩
  · cases moved

theorem step_parts (moved : s.step concurrency h = some next) : Stepped concurrency s h next := by
  unfold step at moved
  split at moved
  · cases moved
    exact .flags true s.ticked
  · cases moved
    exact .flags s.cancelled true
  · obtain ⟨inside,rfl⟩ := guarded moved
    exact .finishes _ inside
  · rename_i ok phase
    cases moved
    refine .goes _ s.ticked (by rw [phase]; rfl) ?_
    cases ok <;> rfl
  · rename_i phase
    obtain ⟨_,rfl⟩ := guarded moved
    exact .exits phase rfl
  · rename_i phase
    obtain ⟨_,rfl⟩ := guarded moved
    exact .goes _ false (by rw [phase]; rfl) rfl
  · rename_i phase
    split at moved
    · cases moved
    · cases moved
      exact .goes _ s.ticked (by rw [phase]; rfl) rfl
  · rename_i phase
    cases moved
    exact .goes _ s.ticked (by rw [phase]; rfl) rfl
  · rename_i phase
    cases moved
    exact .goes _ s.ticked (by rw [phase]; rfl) rfl
  · rename_i phase
    obtain ⟨room,rfl⟩ := guarded moved
    exact .spawns _ _ room (by rw [phase]; rfl) rfl
  · rename_i phase
    obtain ⟨_,rfl⟩ := guarded moved
    exact .goes _ s.ticked (by rw [phase]; rfl) rfl
  · rename_i phase
    cases moved
    refine .goes _ s.ticked (by rw [phase]; rfl) ?_
    split <;> rfl
  · rename_i phase
    cases moved
    exact .goes _ s.ticked (by rw [phase]; rfl) rfl
  · rename_i phase
    cases moved
    exact .goes _ s.ticked (by rw [phase]; rfl) rfl
  · rename_i phase
    cases moved
    exact .goes _ s.ticked (by rw [phase]; rfl) rfl
  · rename_i phase
    cases moved
    exact .goes _ s.ticked (by rw [phase]; rfl) rfl
  · rename_i phase
    obtain ⟨room,rfl⟩ := guarded moved
    exact .spawns _ _ room (by rw [phase]; rfl) rfl
  · rename_i phase
    obtain ⟨_,rfl⟩ := guarded moved
    exact .drains (by rw [phase]; rfl)
  · rename_i phase
    cases moved
    exact .goes _ s.ticked (by rw [phase]; rfl) rfl
  · rename_i phase
    obtain ⟨room,rfl⟩ := guarded moved
    exact .fills _ phase room
  · rename_i phase
    cases moved
    exact .leaves phase
  · cases moved

-- The tokens that the drain has put into the channel.
def drained (concurrency : Nat) : Phase → Nat
  | .draining left => concurrency - left
  | _ => 0

theorem looping_parts (concurrency : Nat) (plain : looping phase') :
    drained concurrency phase' = 0 ∧ phase' ≠ .returned .ctxErr ∧ ∀ n, phase' ≠ .draining n := by
  cases phase' with
  | draining n => cases plain
  | returned why =>
      cases why with
      | ctxErr => cases plain
      | groupErr => simp [drained]
  | _ => simp [drained]

-- Every token belongs to a running goroutine or to the drain.
structure Balanced (concurrency : Nat) (s : Starting) : Prop where
  tokens : s.phase ≠ .returned .ctxErr → s.sem = s.running.length + drained concurrency s.phase
  bounded : s.sem ≤ concurrency
  left : ∀ n, s.phase = .draining n → n ≤ concurrency
  emptied : s.phase = .returned .ctxErr → s.running = []
  fresh : s.spawned = 0 → s.running = []

theorem begin_balanced : Balanced concurrency .begin where
  tokens _ := rfl
  bounded := Nat.zero_le _
  left n wrong := by cases wrong
  emptied wrong := by cases wrong
  fresh _ := rfl

theorem step_balanced (balanced : Balanced concurrency s) (allowed : s.Drains h)
    (moved : Stepped concurrency s h next) : Balanced concurrency next := by
  obtain ⟨tokens,bounded,left,emptied,fresh⟩ := balanced
  cases moved with
  | flags => exact ⟨tokens,bounded,left,emptied,fresh⟩
  | finishes i inside =>
      have fewer : (s.running.eraseIdx i).length = s.running.length - 1 :=
        List.length_eraseIdx_of_lt inside
      have some' : s.running ≠ [] := List.ne_nil_of_length_pos (by omega)
      refine ⟨fun running => ?_,?_,left,fun returned => absurd (emptied returned) some',
        fun none' => absurd (fresh none') some'⟩
      · have := tokens running
        dsimp only
        omega
      · dsimp only
        omega
  | goes phase ticked before after =>
      obtain ⟨none',unreturned,_⟩ := looping_parts concurrency before
      obtain ⟨none'',stays,elsewhere⟩ := looping_parts concurrency after
      have held := tokens unreturned
      refine ⟨fun _ => ?_,bounded,fun n draining => absurd draining (elsewhere n),
        fun returned => absurd returned stays,fresh⟩
      dsimp only
      omega
  | exits top done =>
      have none' := fresh (allowed top done)
      exact ⟨fun running => absurd rfl running,bounded,fun n wrong => (by cases wrong),
        fun _ => none',fresh⟩
  | spawns m phase room before after =>
      obtain ⟨none',unreturned,_⟩ := looping_parts concurrency before
      obtain ⟨none'',stays,elsewhere⟩ := looping_parts concurrency after
      have held := tokens unreturned
      refine ⟨fun _ => ?_,room,fun n draining => absurd draining (elsewhere n),
        fun returned => absurd returned stays,fun none' => absurd none' (Nat.succ_ne_zero _)⟩
      simp only [spawn,List.length_cons]
      omega
  | drains before =>
      obtain ⟨none',unreturned,_⟩ := looping_parts concurrency before
      have held := tokens unreturned
      refine ⟨fun _ => ?_,bounded,fun n draining => ?_,fun wrong => (by cases wrong),fresh⟩
      · simp only [goes,drained]
        omega
      · cases draining
        exact Nat.le_refl _
  | fills n draining room =>
      have held := tokens (by rw [draining]; simp)
      have most := left _ draining
      rw [draining] at held
      refine ⟨fun _ => ?_,room,fun k same => ?_,fun wrong => (by cases wrong),fresh⟩
      · simp only [drained] at held ⊢
        omega
      · cases same
        omega
  | leaves filled =>
      have held := tokens (by rw [filled]; simp)
      rw [filled] at held
      simp only [drained,Nat.sub_zero] at held
      have none' : s.running = [] := List.length_eq_zero_iff.mp (by omega)
      exact ⟨fun running => absurd rfl running,bounded,fun n wrong => (by cases wrong),
        fun _ => none',fresh⟩

theorem reached_balanced (path : Reached concurrency Drains s) : Balanced concurrency s := by
  induction path with
  | start => exact begin_balanced
  | step _ allowed moved ih => exact step_balanced ih allowed (step_parts moved)

theorem shutdown_drains (concurrency : Nat) (path : Reached concurrency Drains s)
    (returned : s.phase = .returned .ctxErr) : s.running = [] :=
  (reached_balanced path).emptied returned

namespace Controls

def mail : XMessage := ⟨"1-0",[]⟩

def drainedRun : List Happening :=
  [.grouped true,.default,.read (.messages [mail,mail]),.acquires,.cancel,.done,.finishes 0,
    .acquires,.proceeds]

theorem shutdown_drains_batch :
    ∃ s, Reached 1 Drains s ∧ s.phase = .returned .ctxErr ∧ s.spawned = 1 ∧ s.running = [] := by
  have ran : (Starting.begin.replay 1 Drains drainedRun).any (fun s => s.phase = .returned .ctxErr ∧
    s.spawned = 1) := by decide
  obtain ⟨s,found,shown⟩ := Option.any_eq_true .. |>.mp ran
  obtain ⟨returned,spawned⟩ := of_decide_eq_true shown
  have path : Reached 1 Drains s := replay_reached .start found
  exact ⟨s,path,returned,spawned,shutdown_drains 1 path returned⟩

-- One entry is being handled when the context is cancelled; the loop comes back
-- to its top and leaves.
theorem shutdown_abandons : (Starting.begin.replay 1 (fun _ _ => True)
    [.grouped true,.default,.read (.messages [mail]),.acquires,.proceeds,.cancel,.done]).any
      (fun s => s.phase = .returned .ctxErr ∧ s.running = [mail]) := by decide

end Controls

end Starting

end RestApi.StreamConsumer
