import Mathlib.Data.Nat.Pairing
import RestApi.Pool

-- Jobs that call into a machine several times, one call after the other. Every
-- call is a goroutine of the machine below, under a number of its own.
namespace RestApi.Stages
open Pool Program

variable {Cmd : Type} {Reply : Cmd → Type}
  {Err Value Found Shared Request Choice Env Intake Outcome : Type}

-- `ask` is such a call; `look` runs code that only reads.
inductive Script (Cmd : Type) (Reply : Cmd → Type) (Err Value Found Request Outcome : Type) where
  | stop (outcome : Outcome)
  | ask (request : Request)
      (next : Except Err Value → Script Cmd Reply Err Value Found Request Outcome)
  | look (code : Program Cmd Reply Err Found)
      (next : Except Err Found → Script Cmd Reply Err Value Found Request Outcome)

inductive Step (Cmd Request : Type) where
  | enter (stage : Nat) (request : Request)
  | call (stage : Nat) (c : Cmd)
  | read (c : Cmd)

@[reducible] def Answer (Reply : Cmd → Type) : Step Cmd Request → Type
  | .enter _ _ => Unit
  | .call _ c => Reply c
  | .read c => Reply c

abbrev Work (Cmd : Type) (Reply : Cmd → Type) (Request Outcome : Type) : Type :=
  Program (Step Cmd Request) (Answer Reply) Empty Outcome

def calling (stage : Nat) (next : Except Err Value → Work Cmd Reply Request Outcome) :
    Program Cmd Reply Err Value → Work Cmd Reply Request Outcome
  | .done value => next (.ok value)
  | .fail err => next (.error err)
  | .call c rest => .call (.call stage c) fun reply => calling stage next (rest reply)

def reading (next : Except Err Found → Work Cmd Reply Request Outcome) :
    Program Cmd Reply Err Found → Work Cmd Reply Request Outcome
  | .done value => next (.ok value)
  | .fail err => next (.error err)
  | .call c rest => .call (.read c) fun reply => reading next (rest reply)

def Script.work (code : Request → Program Cmd Reply Err Value) :
    Nat → Script Cmd Reply Err Value Found Request Outcome → Work Cmd Reply Request Outcome
  | _,.stop outcome => .done outcome
  | stage,.ask request next => .call (.enter stage request) fun _ =>
      calling stage (fun result => (next result).work code (stage+1)) (code request)
  | stage,.look inner next => reading (fun result => (next result).work code stage) inner

-- The goroutine of a call.
def slot (pid : Pid) (stage : Nat) : Pid := Nat.pair pid stage

theorem slot_injective (same : slot a m = slot b n) : a = b ∧ m = n := Nat.pair_eq_pair.mp same

-- `stages` counts the calls a job has begun.
structure Front (Shared Intake : Type) where
  below : Shared
  intakes : Pid → Option Intake
  stages : Pid → Nat

def Front.start (shared : Shared) : Front Shared Intake := ⟨shared,fun _ => none,fun _ => 0⟩

-- A job that dies takes the call it is in with it. Reading leaves no trace below.
def staged (m : Machine Cmd Reply Err Value Shared Request Choice Env)
    (script : Intake → Script Cmd Reply Err Value Found Request Outcome) :
    Machine (Step Cmd Request) (Answer Reply) Empty Outcome
      (Front Shared Intake) Intake Choice Env where
  code intake := (script intake).work m.code 0
  accept f pid intake := match f.intakes pid with
    | some _ => none
    | none => some {f with intakes := Function.update f.intakes pid (some intake)}
  exec f pid c choice := match c with
    | .enter stage request => (m.accept f.below (slot pid stage) request).map fun below =>
        ({f with below := below,stages := Function.update f.stages pid (stage+1)},some ())
    | .call stage c =>
        (m.exec f.below (slot pid stage) c choice).map fun ran => ({f with below := ran.1},ran.2)
    | .read c => (m.exec f.below (slot pid (f.stages pid)) c choice).map fun ran => (f,ran.2)
  abandon f pid := match f.stages pid with
    | 0 => f
    | stage+1 => {f with below := m.abandon f.below (slot pid stage)}
  env f event := (m.env f.below event).map fun below => {f with below := below}

section Endings
variable {α : Type}

def ending : Program Cmd Reply Err α → Option (Except Err α)
  | .done value => some (.ok value)
  | .fail err => some (.error err)
  | .call _ _ => none

-- What code can end with, whatever it is told.
def Ends : Program Cmd Reply Err α → Except Err α → Prop
  | .done value,result => result = .ok value
  | .fail err,result => result = .error err
  | .call _ next,result => ∃ reply, Ends (next reply) result

end Endings

-- The machine below remembers which goroutine was started for what.
structure Records (m : Machine Cmd Reply Err Value Shared Request Choice Env)
    (asked : Shared → Pid → Option Request) : Prop where
  accepts : ∀ {shared pid request after}, m.accept shared pid request = some after →
    asked after = Function.update (asked shared) pid (some request)
  executes : ∀ {shared pid c choice after reply}, m.exec shared pid c choice = some (after,reply) →
    asked after = asked shared
  abandons : ∀ shared pid, asked (m.abandon shared pid) = asked shared
  environs : ∀ {shared event after}, m.env shared event = some after → asked after = asked shared

section Course

-- How far a script has come, by the calls that stand answered below.
inductive Came (asked : Shared → Pid → Option Request) (below : State Cmd Reply Err Value Shared)
    (pid : Pid) (script : Script Cmd Reply Err Value Found Request Outcome) :
    Nat → Script Cmd Reply Err Value Found Request Outcome → Prop where
  | start : Came asked below pid script 0 script
  | answered (before : Came asked below pid script n (.ask request next))
      (known : asked below.shared (slot pid n) = some request)
      (here : below.threads (slot pid n) = some code) (ended : ending code = some result) :
      Came asked below pid script (n+1) (next result)
  | seen (before : Came asked below pid script n (.look code next)) (possible : Ends code result) :
      Came asked below pid script n (next result)

-- Where the code of a job stands in its script.
inductive Place (m : Machine Cmd Reply Err Value Shared Request Choice Env)
    (asked : Shared → Pid → Option Request) (below : State Cmd Reply Err Value Shared) (pid : Pid)
    (script : Script Cmd Reply Err Value Found Request Outcome) :
    Nat → Work Cmd Reply Request Outcome → Prop where
  | between (came : Came asked below pid script n now) :
      Place m asked below pid script n (now.work m.code n)
  | asking (came : Came asked below pid script n (.ask request next))
      (known : asked below.shared (slot pid n) = some request)
      (here : below.threads (slot pid n) = some code) :
      Place m asked below pid script (n+1)
        (calling n (fun result => (next result).work m.code (n+1)) code)
  | looking (came : Came asked below pid script n (.look whole next))
      (part : ∀ result, Ends code result → Ends whole result) :
      Place m asked below pid script n (reading (fun result => (next result).work m.code n) code)

-- The same with the command the job is about to issue.
inductive Ready (m : Machine Cmd Reply Err Value Shared Request Choice Env)
    (asked : Shared → Pid → Option Request) (below : State Cmd Reply Err Value Shared) (pid : Pid)
    (script : Script Cmd Reply Err Value Found Request Outcome) :
    Nat → Work Cmd Reply Request Outcome → Prop where
  | stopped (came : Came asked below pid script n (.stop outcome)) :
      Ready m asked below pid script n (.done outcome)
  | entering (came : Came asked below pid script n (.ask request next)) :
      Ready m asked below pid script n (.call (.enter n request) fun _ =>
        calling n (fun result => (next result).work m.code (n+1)) (m.code request))
  | asking (came : Came asked below pid script n (.ask request next))
      (known : asked below.shared (slot pid n) = some request)
      (here : below.threads (slot pid n) = some (.call c rest)) :
      Ready m asked below pid script (n+1)
        (.call (.call n c) fun reply => calling n (fun result => (next result).work m.code (n+1))
        (rest reply))
  | looking (came : Came asked below pid script n (.look whole next))
      (part : ∀ result, Ends (.call c rest) result → Ends whole result) :
      Ready m asked below pid script n (.call (.read c) fun reply => reading
        (fun result => (next result).work m.code n) (rest reply))

variable {m : Machine Cmd Reply Err Value Shared Request Choice Env}
  {asked : Shared → Pid → Option Request} {below later : State Cmd Reply Err Value Shared}
  {script now : Script Cmd Reply Err Value Found Request Outcome} {pid : Pid} {n : Nat}

theorem between_ready (came : Came asked below pid script n now) :
    Ready m asked below pid script n (now.work m.code n) := by
  induction now with
  | stop outcome => exact .stopped came
  | ask request next _ => exact .entering came
  | look inner next ih =>
      cases inner with
      | done value => exact ih _ (.seen came rfl)
      | fail err => exact ih _ (.seen came rfl)
      | call c rest => exact .looking came fun _ possible => possible

theorem place_ready {work : Work Cmd Reply Request Outcome}
    (place : Place m asked below pid script n work) : Ready m asked below pid script n work := by
  cases place with
  | between came => exact between_ready came
  | @asking n request next code came known here =>
      cases code with
      | done value => exact between_ready (.answered came known here rfl)
      | fail err => exact between_ready (.answered came known here rfl)
      | call c rest => exact .asking came known here
  | @looking n whole next code came part =>
      cases code with
      | done value => exact between_ready (.seen came (part _ rfl))
      | fail err => exact between_ready (.seen came (part _ rfl))
      | call c rest => exact .looking came part

-- The calls a script has behind it have their goroutines.
theorem Came.behind (came : Came asked below pid script n now) (early : k < n) :
    ∃ code, below.threads (slot pid k) = some code := by
  induction came with
  | start => cases early
  | @answered n request next code result before known here ended ih =>
      rcases Nat.lt_succ_iff_lt_or_eq.mp early with earlier | rfl
      · exact ih earlier
      · exact ⟨code,here⟩
  | seen before possible ih => exact ih early

-- Two states of the machine below that differ in one goroutine at most.
def Beside (asked : Shared → Pid → Option Request) (changed : Pid)
    (below later : State Cmd Reply Err Value Shared) : Prop :=
  ∀ other, other ≠ changed → later.threads other = below.threads other ∧
    asked later.shared other = asked below.shared other

theorem Came.frame (beside : Beside asked (slot owner k) below later) (apart : owner ≠ pid ∨ n ≤ k)
    (came : Came asked below pid script n now) : Came asked later pid script n now := by
  induction came with
  | start => exact .start
  | @answered n request next code result before known here ended ih =>
      have different : slot pid n ≠ slot owner k := by
        intro same
        obtain ⟨rfl,rfl⟩ := slot_injective same
        rcases apart with other | late
        · exact other rfl
        · exact Nat.not_succ_le_self _ late
      obtain ⟨threads,requests⟩ := beside _ different
      exact .answered (ih (apart.imp_right Nat.le_of_succ_le)) (requests.trans known)
        (threads.trans here) ended
  | seen before possible ih => exact .seen (ih apart) possible

theorem Place.frame {work : Work Cmd Reply Request Outcome}
    (beside : Beside asked (slot owner k) below later) (apart : owner ≠ pid)
    (place : Place m asked below pid script n work) : Place m asked later pid script n work := by
  cases place with
  | between came => exact .between (came.frame beside (.inl apart))
  | @asking n request next code came known here =>
      obtain ⟨threads,requests⟩ :=
        beside (slot pid n) fun same => apart (slot_injective same).1.symm
      exact .asking (came.frame beside (.inl apart)) (requests.trans known) (threads.trans here)
  | looking came part => exact .looking (came.frame beside (.inl apart)) part

end Course

section Runs
variable {m : Machine Cmd Reply Err Value Shared Request Choice Env}
  {asked : Shared → Pid → Option Request}
  {script : Intake → Script Cmd Reply Err Value Found Request Outcome}
  {s : State (Step Cmd Request) (Answer Reply) Empty Outcome (Front Shared Intake)}
  {below later : State Cmd Reply Err Value Shared}

-- A state of the jobs and the state of the machine below that goes with it: every
-- job is where its script says, and every goroutine belongs to a job.
structure Simulated (m : Machine Cmd Reply Err Value Shared Request Choice Env)
    (asked : Shared → Pid → Option Request)
    (script : Intake → Script Cmd Reply Err Value Found Request Outcome)
    (s : State (Step Cmd Request) (Answer Reply) Empty Outcome (Front Shared Intake))
    (below : State Cmd Reply Err Value Shared) : Prop where
  shared : below.shared = s.shared.below
  fresh : ∀ pid, s.shared.intakes pid = none → s.shared.stages pid = 0
  placed : ∀ pid work, s.threads pid = some work → ∃ intake, s.shared.intakes pid = some intake ∧
    Place m asked below pid (script intake) (s.shared.stages pid) work
  traced : ∀ goroutine request, asked below.shared goroutine = some request →
    ∃ pid n intake next, goroutine = slot pid n ∧ s.shared.intakes pid = some intake ∧
    n < s.shared.stages pid ∧ Came asked below pid (script intake) n (.ask request next)

-- The jobs beside the one that acted.
theorem Simulated.others (simulated : Simulated m asked script s below)
    (beside : Beside asked (slot owner k) below later) (different : other ≠ owner)
    (there : s.threads other = some work) :
    ∃ intake, s.shared.intakes other = some intake ∧
    Place m asked later other (script intake) (s.shared.stages other) work := by
  obtain ⟨intake,known,place⟩ := simulated.placed other work there
  exact ⟨intake,known,place.frame beside fun same => different same.symm⟩

theorem Simulated.trace (simulated : Simulated m asked script s below)
    (beside : Beside asked (slot owner k) below later) (late : s.shared.stages owner ≤ k+1)
    (known : asked below.shared goroutine = some request) :
    ∃ pid n intake next, goroutine = slot pid n ∧ s.shared.intakes pid = some intake ∧
      n < s.shared.stages pid ∧
      Came asked later pid (script intake) n (.ask request next) := by
  obtain ⟨pid,n,intake,next,rfl,taken,early,came⟩ := simulated.traced goroutine request known
  refine ⟨pid,n,intake,next,rfl,taken,early,came.frame beside ?_⟩
  by_cases same : owner = pid
  · subst same
    exact .inr (by omega)
  · exact .inl same

theorem spawn_simulated (simulated : Simulated m asked script s below)
    (accepted : (staged m script).accept s.shared pid intake = some after) :
    Simulated m asked script ⟨after,Function.update s.threads pid
      (some ((staged m script).code intake))⟩ below := by
  simp only [staged] at accepted
  split at accepted
  · cases accepted
  · rename_i free
    cases accepted
    have elsewhere {other : Pid} {given : Intake} (taken : s.shared.intakes other = some given) :
        other ≠ pid := by
      rintro rfl
      rw [free] at taken
      cases taken
    refine ⟨simulated.shared,fun other absent => ?_,fun other work there => ?_,
      fun goroutine request known => ?_⟩
    · by_cases same : other = pid
      · exact same ▸ simulated.fresh pid free
      · exact simulated.fresh other (by simpa [Function.update_of_ne same] using absent)
    · rcases updated_thread there with ⟨rfl,started⟩ | ⟨different,there⟩
      · cases started
        refine ⟨intake,Function.update_self ..,?_⟩
        simp only [simulated.fresh other free]
        exact .between .start
      · obtain ⟨given,taken,place⟩ := simulated.placed other work there
        exact ⟨given,by simpa [Function.update_of_ne different] using taken,place⟩
    · obtain ⟨other,n,given,next,same,taken,early,came⟩ := simulated.traced goroutine request known
      exact ⟨other,n,given,next,same,by simpa [Function.update_of_ne (elsewhere taken)] using taken,
        early,came⟩

-- What a job leaves when it has acted through its goroutine `k`.
theorem Simulated.acted (simulated : Simulated m asked script s below)
    (taken : s.shared.intakes pid = some intake) (beside : Beside asked (slot pid k) below later)
    (late : s.shared.stages pid ≤ k+1) {after : Front Shared Intake}
    {threads : Pid → Option (Work Cmd Reply Request Outcome)} (shared : later.shared = after.below)
    (intakes : after.intakes = s.shared.intakes)
    (stages : ∀ other, other ≠ pid → after.stages other = s.shared.stages other)
    (begun : k < after.stages pid)
    (mine : ∀ request, asked later.shared (slot pid k) = some request →
      ∃ next, Came asked later pid (script intake) k (.ask request next))
    (placed : ∀ other work, threads other = some work → other = pid ∧
      Place m asked later pid (script intake) (after.stages pid) work ∨ other ≠ pid ∧
      s.threads other = some work) : Simulated m asked script ⟨after,threads⟩ later := by
  have grown (other : Pid) {n : Nat} (early : n < s.shared.stages other) :
      n < after.stages other := by
    by_cases same : other = pid
    · subst same
      omega
    · rwa [stages other same]
  refine ⟨shared,fun other absent => ?_,fun other work there => ?_,
    fun goroutine request known => ?_⟩
  · have different : other ≠ pid := by
      rintro rfl
      rw [intakes,taken] at absent
      cases absent
    rw [stages other different]
    exact simulated.fresh other (intakes ▸ absent)
  · rcases placed other work there with ⟨rfl,place⟩ | ⟨different,there⟩
    · exact ⟨intake,by rw [intakes,taken],place⟩
    · simp only [intakes,stages other different]
      exact simulated.others beside different there
  · simp only [intakes]
    by_cases same : goroutine = slot pid k
    · subst same
      obtain ⟨next,came⟩ := mine request known
      exact ⟨pid,k,intake,next,rfl,taken,begun,came⟩
    · obtain ⟨other,n,given,next,split,known,early,came⟩ :=
        simulated.trace beside late ((beside goroutine same).2 ▸ known)
      exact ⟨other,n,given,next,split,known,grown other early,came⟩

-- Only the code of the job itself has changed.
theorem Simulated.coded (simulated : Simulated m asked script s below)
    (taken : s.shared.intakes pid = some intake)
    (place : Place m asked below pid (script intake) (s.shared.stages pid) work) :
    Simulated m asked script ⟨s.shared,Function.update s.threads pid (some work)⟩ below := by
  refine ⟨simulated.shared,simulated.fresh,fun other code there => ?_,simulated.traced⟩
  rcases updated_thread there with ⟨rfl,same⟩ | ⟨_,there⟩
  · cases same
    exact ⟨intake,taken,place⟩
  · exact simulated.placed other code there

-- The job goes on in a call it has begun.
theorem Simulated.called (simulated : Simulated m asked script s below)
    (taken : s.shared.intakes pid = some intake) (counted : s.shared.stages pid = n+1)
    (came : Came asked below pid (script intake) n (.ask request next))
    (known : asked below.shared (slot pid n) = some request)
    (beside : Beside asked (slot pid n) below later)
    (requests : asked later.shared = asked below.shared)
    (here : later.threads (slot pid n) = some code) :
    Simulated m asked script ⟨{s.shared with below := later.shared},Function.update s.threads pid
      (some (calling n (fun result => (next result).work m.code (n+1)) code))⟩ later := by
  have after := came.frame beside (.inr le_rfl)
  have recorded : asked later.shared (slot pid n) = some request :=
    (congrFun requests _).trans known
  refine simulated.acted taken beside counted.le rfl rfl (fun _ _ => rfl) ?_ (fun given same => ?_)
    fun other work there => ?_
  · simp only [counted,Nat.lt_succ_self]
  · cases recorded.symm.trans same
    exact ⟨next,after⟩
  · rcases updated_thread there with ⟨rfl,same⟩ | outside
    · cases same
      refine .inl ⟨rfl,?_⟩
      simp only [counted]
      exact .asking after recorded here
    · exact .inr outside

-- One step of a job is one step of the goroutine it is in, or the start of its
-- next one, or none at all when it only reads.
theorem step_simulated (records : Records m asked) (simulated : Simulated m asked script s below)
    (here : s.threads pid = some (.call c next))
    (ran : (staged m script).exec s.shared pid c choice = some (after,reply)) :
    ∃ later, (later = below ∨ ∃ act, advance m below act = some later) ∧
      Simulated m asked script (resume s pid c next (after,reply)) later := by
  obtain ⟨intake,taken,place⟩ := simulated.placed pid _ here
  have mine := place_ready place
  generalize counted : s.shared.stages pid = n at mine
  generalize issued : Program.call c next = work at mine
  cases mine with
  | stopped came => cases issued
  | @entering n request rest came =>
      cases issued
      obtain ⟨front,accepted,same⟩ := Option.map_eq_some_iff.mp ran
      cases same
      rw [← simulated.shared] at accepted
      have known := records.accepts accepted
      refine ⟨⟨front,Function.update below.threads (slot pid n) (some (m.code request))⟩,
        .inr ⟨.spawn (slot pid n) request,by simp [advance,accepted]⟩,?_⟩
      have beside : Beside asked (slot pid n) below
        ⟨front,Function.update below.threads (slot pid n) (some (m.code request))⟩ :=
        fun other different => ⟨Function.update_of_ne different _ _,
        by rw [known,Function.update_of_ne different]⟩
      have later := came.frame beside (.inr le_rfl)
      have recorded : asked front (slot pid n) = some request := by rw [known,Function.update_self]
      refine simulated.acted taken beside (by omega) rfl rfl
        (fun other different => Function.update_of_ne different _ _) (by simp)
        (fun given same => ?_) fun other work there => ?_
      · cases recorded.symm.trans same
        exact ⟨rest,later⟩
      · rcases updated_thread there with ⟨rfl,same⟩ | outside
        · cases same
          refine .inl ⟨rfl,?_⟩
          simp only [Function.update_self]
          exact .asking later recorded (Function.update_self ..)
        · exact .inr outside
  | @asking n request rest c inner came known thread =>
      cases issued
      obtain ⟨⟨front,answer⟩,executed,same⟩ := Option.map_eq_some_iff.mp ran
      cases same
      rw [← simulated.shared] at executed
      refine ⟨resume below (slot pid n) c inner (front,answer),
        .inr ⟨.step (slot pid n) choice,by simp [advance,thread,executed]⟩,?_⟩
      have requests : asked front = asked below.shared := records.executes executed
      cases answer with
      | none =>
          have beside : Beside asked (slot pid n) below {below with shared := front} :=
            fun other _ => ⟨rfl,congrFun requests other⟩
          have same := simulated.called taken counted came known beside requests thread
          rwa [show calling n _ (.call c inner) = _ from rfl,
            Function.update_eq_self_iff.mpr here.symm] at same
      | some answer =>
          have beside : Beside asked (slot pid n) below
            ⟨front,Function.update below.threads (slot pid n) (some (inner answer))⟩ :=
            fun other different => ⟨Function.update_of_ne different _ _,congrFun requests other⟩
          exact simulated.called taken counted came known beside requests (Function.update_self ..)
  | @looking n whole rest c inner came part =>
      cases issued
      obtain ⟨⟨front,answer⟩,ran,same⟩ := Option.map_eq_some_iff.mp ran
      cases same
      refine ⟨below,.inl rfl,?_⟩
      cases answer with
      | none => exact simulated
      | some answer =>
          refine simulated.coded taken ?_
          rw [counted]
          exact .looking came fun result possible => part result ⟨answer,possible⟩

theorem kill_simulated (records : Records m asked) (simulated : Simulated m asked script s below)
    (here : s.threads pid = some work) :
    ∃ later, (later = below ∨ ∃ act, advance m below act = some later) ∧
      Simulated m asked script ⟨(staged m script).abandon s.shared pid,
        Function.update s.threads pid none⟩ later := by
  obtain ⟨intake,taken,place⟩ := simulated.placed pid _ here
  have gone {other : Pid} {code : Work Cmd Reply Request Outcome}
      (there : Function.update s.threads pid none other = some code) : other ≠ pid ∧
      s.threads other = some code := by
    rcases updated_thread there with ⟨_,same⟩ | outside
    · cases same
    · exact outside
  simp only [staged]
  split
  · refine ⟨below,.inl rfl,simulated.shared,simulated.fresh,fun other code there => ?_,
      simulated.traced⟩
    exact simulated.placed other code (gone there).2
  · rename_i n counted
    obtain ⟨inner,thread⟩ : ∃ inner, below.threads (slot pid n) = some inner := by
      rw [counted] at place
      cases place with
      | between came => exact came.behind (Nat.lt_succ_self n)
      | asking came known inside => exact ⟨_,inside⟩
      | looking came part => exact came.behind (Nat.lt_succ_self n)
    have requests := records.abandons below.shared (slot pid n)
    refine ⟨⟨m.abandon below.shared (slot pid n),Function.update below.threads (slot pid n) none⟩,
      .inr ⟨.kill (slot pid n),by simp [advance,thread]⟩,?_⟩
    have beside : Beside asked (slot pid n) below ⟨m.abandon below.shared (slot pid n),
      Function.update below.threads (slot pid n) none⟩ :=
      fun other different => ⟨Function.update_of_ne different _ _,congrFun requests other⟩
    refine simulated.acted taken beside counted.le (by rw [simulated.shared]) rfl (fun _ _ => rfl)
      (by simp [counted]) (fun request known => ?_) fun other code there => .inr (gone there)
    obtain ⟨other,k,given,next,same,listed,early,came⟩ :=
      simulated.traced _ request ((congrFun requests _).symm.trans known)
    obtain ⟨rfl,rfl⟩ := slot_injective same
    cases taken.symm.trans listed
    exact ⟨next,came.frame beside (.inr le_rfl)⟩

theorem env_simulated (records : Records m asked) (simulated : Simulated m asked script s below)
    (ran : (staged m script).env s.shared event = some after) :
    ∃ later, (later = below ∨ ∃ act, advance m below act = some later) ∧
      Simulated m asked script {s with shared := after} later := by
  obtain ⟨front,moved,rfl⟩ := Option.map_eq_some_iff.mp ran
  rw [← simulated.shared] at moved
  have requests : asked front = asked below.shared := records.environs moved
  have beside (changed : Pid) : Beside asked changed below {below with shared := front} :=
    fun other _ => ⟨rfl,congrFun requests other⟩
  refine ⟨{below with shared := front},.inr ⟨.env event,by simp [advance,moved]⟩,rfl,simulated.fresh,
    fun pid work here => ?_,fun goroutine request known => ?_⟩
  · obtain ⟨intake,taken,place⟩ := simulated.placed pid work here
    exact ⟨intake,taken,place.frame (beside (slot (pid+1) 0)) (Nat.succ_ne_self pid)⟩
  · obtain ⟨pid,n,intake,next,same,taken,early,came⟩ :=
      simulated.traced goroutine request ((congrFun requests _).symm.trans known)
    exact ⟨pid,n,intake,next,same,taken,early,came.frame (beside (slot pid n)) (.inr le_rfl)⟩

-- A job that is done has come to the end of its script.
theorem Simulated.stopped (simulated : Simulated m asked script s below)
    (here : s.threads pid = some (.done outcome)) :
    ∃ intake n, s.shared.intakes pid = some intake ∧ Came asked below pid (script intake) n
      (.stop outcome) := by
  obtain ⟨intake,taken,place⟩ := simulated.placed pid _ here
  have ready := place_ready place
  generalize s.shared.stages pid = n at ready
  generalize ended : (Program.done outcome : Work Cmd Reply Request Outcome) = work at ready
  cases ready with
  | stopped came =>
      cases ended
      exact ⟨intake,_,taken,came⟩
  | entering _ => cases ended
  | asking _ _ _ => cases ended
  | looking _ _ => cases ended

-- Whatever the jobs do, the machine below does.
theorem staged_simulated (records : Records m asked) {shared : Shared}
    (unasked : ∀ pid, asked shared pid = none)
    (path : Reached (staged m script) allow (State.start (Front.start shared)) s) :
    ∃ below, Reached m (fun _ _ => True) (State.start shared) below ∧
      Simulated m asked script s below := by
  have onward {below later : State Cmd Reply Err Value Shared}
      (prior : Reached m (fun _ _ => True) (State.start shared) below)
      (moved : later = below ∨ ∃ act, advance m below act = some later) :
      Reached m (fun _ _ => True) (State.start shared) later := by
    rcases moved with rfl | ⟨act,advanced⟩
    · exact prior
    · exact .step prior trivial advanced
  refine path.invariant (fun s => ∃ below, Reached m (fun _ _ => True) (State.start shared) below ∧
    Simulated m asked script s below) ⟨_,.refl,rfl,fun _ _ => rfl,fun _ _ here => ?_,
    fun goroutine request known => ?_⟩ fun {s act next} _ sofar _ moves => ?_
  · cases here
  · cases (unasked goroutine).symm.trans known
  · obtain ⟨below,prior,simulated⟩ := sofar
    cases moves with
    | spawn accepted => exact ⟨below,prior,spawn_simulated simulated accepted⟩
    | wait here ran =>
        obtain ⟨later,moved,after⟩ := step_simulated records simulated here ran
        exact ⟨later,onward prior moved,after⟩
    | reply here ran =>
        obtain ⟨later,moved,after⟩ := step_simulated records simulated here ran
        exact ⟨later,onward prior moved,after⟩
    | kill here =>
        obtain ⟨later,moved,after⟩ := kill_simulated records simulated here
        exact ⟨later,onward prior moved,after⟩
    | env ran =>
        obtain ⟨later,moved,after⟩ := env_simulated records simulated ran
        exact ⟨later,onward prior moved,after⟩

end Runs
end RestApi.Stages
