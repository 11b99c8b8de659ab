import Mathlib.Logic.Function.Basic
import RestApi.Program

namespace RestApi.Pool
open Program

abbrev Pid := Nat

-- Any number of goroutines over one shared state. The machine says what one
-- command does (none: it is blocked, or this outcome is impossible here), what a
-- dying goroutine leaves behind and what the surroundings may do on their own.
structure Machine (Cmd : Type) (Reply : Cmd → Type)
    (Err Value Shared Request Choice Env : Type) where
  code : Request → Program Cmd Reply Err Value
  accept : Shared → Pid → Request → Option Shared
  exec : Shared → Pid → (c : Cmd) → Choice → Option (Shared × Option (Reply c))
  abandon : Shared → Pid → Shared
  env : Shared → Env → Option Shared

inductive Act (Request Choice Env : Type) where
  | spawn (pid : Pid) (request : Request)
  | step (pid : Pid) (choice : Choice)
  | kill (pid : Pid)
  | env (event : Env)

structure State (Cmd : Type) (Reply : Cmd → Type) (Err Value Shared : Type) where
  shared : Shared
  threads : Pid → Option (Program Cmd Reply Err Value)

variable {Cmd : Type} {Reply : Cmd → Type} {Err Value Shared Request Choice Env View : Type}

def State.start (shared : Shared) : State Cmd Reply Err Value Shared := ⟨shared,fun _ => none⟩

def resume (s : State Cmd Reply Err Value Shared) (pid : Pid) (c : Cmd)
    (next : Reply c → Program Cmd Reply Err Value) :
    Shared × Option (Reply c) → State Cmd Reply Err Value Shared
  | (shared,none) => {s with shared := shared}
  | (shared,some reply) => ⟨shared,Function.update s.threads pid (some (next reply))⟩

def advance (m : Machine Cmd Reply Err Value Shared Request Choice Env)
    (s : State Cmd Reply Err Value Shared) :
    Act Request Choice Env → Option (State Cmd Reply Err Value Shared)
  | .spawn pid request =>
      (m.accept s.shared pid request).map fun shared =>
        ⟨shared,Function.update s.threads pid (some (m.code request))⟩
  | .step pid choice => match s.threads pid with
      | some (.call c next) => (m.exec s.shared pid c choice).map (resume s pid c next)
      | _ => none
  | .kill pid => match s.threads pid with
      | some _ => some ⟨m.abandon s.shared pid,Function.update s.threads pid none⟩
      | none => none
  | .env event => (m.env s.shared event).map fun shared => {s with shared := shared}

-- Runs a schedule, stopping where a step is impossible or not allowed.
def run (m : Machine Cmd Reply Err Value Shared Request Choice Env)
    (allow : State Cmd Reply Err Value Shared → Act Request Choice Env → Prop)
    [∀ s act, Decidable (allow s act)] :
    State Cmd Reply Err Value Shared → List (Act Request Choice Env) →
      Option (State Cmd Reply Err Value Shared)
  | s,[] => some s
  | s,act :: rest => if allow s act then (advance m s act).bind (run m allow · rest) else none

-- Everything one act can do, guards included.
inductive Moves (m : Machine Cmd Reply Err Value Shared Request Choice Env)
    (s : State Cmd Reply Err Value Shared) :
    Act Request Choice Env → State Cmd Reply Err Value Shared → Prop where
  | spawn (accepted : m.accept s.shared pid request = some shared) :
      Moves m s (.spawn pid request) ⟨shared,Function.update s.threads pid (some (m.code request))⟩
  | wait (here : s.threads pid = some (.call c next))
      (ran : m.exec s.shared pid c choice = some (shared,none)) :
      Moves m s (.step pid choice) {s with shared := shared}
  | reply (here : s.threads pid = some (.call c next))
      (ran : m.exec s.shared pid c choice = some (shared,some answer)) :
      Moves m s (.step pid choice) ⟨shared,Function.update s.threads pid (some (next answer))⟩
  | kill (here : s.threads pid = some code) :
      Moves m s (.kill pid) ⟨m.abandon s.shared pid,Function.update s.threads pid none⟩
  | env (ran : m.env s.shared event = some shared) :
      Moves m s (.env event) {s with shared := shared}

-- States reached by runs whose every step is allowed. `allow` carries the
-- hypotheses a law makes about its runs; `fun _ _ => True` is every run.
inductive Reached (m : Machine Cmd Reply Err Value Shared Request Choice Env)
    (allow : State Cmd Reply Err Value Shared → Act Request Choice Env → Prop)
    (init : State Cmd Reply Err Value Shared) : State Cmd Reply Err Value Shared → Prop where
  | refl : Reached m allow init init
  | step : Reached m allow init s → allow s act → advance m s act = some next →
      Reached m allow init next

variable {m : Machine Cmd Reply Err Value Shared Request Choice Env}
  {s next init : State Cmd Reply Err Value Shared} {act : Act Request Choice Env}

theorem advance_moves (advanced : advance m s act = some next) : Moves m s act next := by
  cases act with
  | spawn pid request =>
      obtain ⟨shared,accepted,rfl⟩ := Option.map_eq_some_iff.mp advanced
      exact .spawn accepted
  | step pid choice =>
      simp only [advance] at advanced
      split at advanced
      · rename_i c rest here
        obtain ⟨⟨shared,reply⟩,ran,rfl⟩ := Option.map_eq_some_iff.mp advanced
        cases reply with
        | none => exact .wait here ran
        | some answer => exact .reply here ran
      · cases advanced
  | kill pid =>
      simp only [advance] at advanced
      split at advanced
      · rename_i code here
        cases advanced
        exact .kill here
      · cases advanced
  | env event =>
      obtain ⟨shared,ran,rfl⟩ := Option.map_eq_some_iff.mp advanced
      exact .env ran

variable {allow allow' : State Cmd Reply Err Value Shared → Act Request Choice Env → Prop}

theorem Reached.mono (weaker : ∀ s act, allow s act → allow' s act)
    (path : Reached m allow init s) : Reached m allow' init s := by
  induction path with
  | refl => exact .refl
  | step _ allowed advanced ih => exact .step ih (weaker _ _ allowed) advanced

theorem Reached.trans (first : Reached m allow init s) (second : Reached m allow s next) :
    Reached m allow init next := by
  induction second with
  | refl => exact first
  | step _ allowed advanced ih => exact .step ih allowed advanced

-- One induction for every safety law.
theorem Reached.invariant (Inv : State Cmd Reply Err Value Shared → Prop) (start : Inv init)
    (kept : ∀ {s act next}, Reached m allow init s → Inv s → allow s act → Moves m s act next →
      Inv next) (path : Reached m allow init s) : Inv s := by
  induction path with
  | refl => exact start
  | step prior allowed advanced ih => exact kept prior ih allowed (advance_moves advanced)

-- Runs of one kind are runs of another as long as an invariant of theirs says so.
theorem Reached.within (Inv : State Cmd Reply Err Value Shared → Prop) (start : Inv init)
    (kept : ∀ {s act next}, Inv s → allow s act → Moves m s act next → Inv next)
    (weaker : ∀ s act, Inv s → allow s act → allow' s act)
    (path : Reached m allow init s) : Reached m allow' init s := by
  suffices both : Reached m allow' init s ∧ Inv s from both.1
  induction path with
  | refl => exact ⟨.refl,start⟩
  | step _ allowed advanced ih =>
      obtain ⟨prior,inv⟩ := ih
      exact ⟨.step prior (weaker _ _ inv allowed) advanced,
        kept inv allowed (advance_moves advanced)⟩

theorem run_reached [∀ s act, Decidable (allow s act)] {acts : List (Act Request Choice Env)}
    (path : Reached m allow init s) (ran : run m allow s acts = some next) :
    Reached m allow init next := by
  induction acts generalizing s with
  | nil => cases ran; exact path
  | cons act rest ih =>
      simp only [run,Option.ite_none_right_eq_some] at ran
      obtain ⟨allowed,ran⟩ := ran
      obtain ⟨middle,advanced,ran⟩ := Option.bind_eq_some_iff.mp ran
      exact ih (.step path allowed advanced) ran

-- A schedule that ends in a state with a checkable property.
theorem run_finds (m : Machine Cmd Reply Err Value Shared Request Choice Env)
    (allow : State Cmd Reply Err Value Shared → Act Request Choice Env → Prop)
    [∀ s act, Decidable (allow s act)] (init : State Cmd Reply Err Value Shared)
    (acts : List (Act Request Choice Env)) (found : State Cmd Reply Err Value Shared → Prop)
    [DecidablePred found] (ran : (run m allow init acts).any (decide <| found ·) = true) :
    ∃ s, Reached m allow init s ∧ found s := by
  obtain ⟨s,finished,holds⟩ := (Option.any_eq_true _ _).mp ran
  exact ⟨s,run_reached .refl finished,of_decide_eq_true holds⟩

-- What a machine owes so that the sequential rule `Meets` is sound for all its
-- goroutines at once: a command acts locally on its own view, is invisible in
-- every other view, and keeps the shared invariant while its duty is met.
structure Sound (m : Machine Cmd Reply Err Value Shared Request Choice Env)
    (allow : State Cmd Reply Err Value Shared → Act Request Choice Env → Prop)
    (Inv : Shared → Prop) (view : Shared → Pid → View)
    (Local : View → (c : Cmd) → Option (Reply c) → View → Prop)
    (duty : View → Cmd → Prop) (post : View → Except Err Value → Prop) : Prop where
  accepts : ∀ {shared pid request after}, Inv shared → m.accept shared pid request = some after →
    Inv after ∧ Meets Local duty post (m.code request) (view after pid) ∧
      ∀ other, other ≠ pid → view after other = view shared other
  executes : ∀ {s : State Cmd Reply Err Value Shared} {pid c next choice after reply},
    Inv s.shared → s.threads pid = some (.call c next) → duty (view s.shared pid) c →
    allow s (.step pid choice) → m.exec s.shared pid c choice = some (after,reply) → Inv after ∧
    Local (view s.shared pid) c reply (view after pid) ∧ ∀ other, other ≠ pid →
    view after other = view s.shared other
  abandons : ∀ {shared} (pid : Pid), Inv shared → Inv (m.abandon shared pid) ∧
    ∀ other, other ≠ pid → view (m.abandon shared pid) other = view shared other
  environs : ∀ {s : State Cmd Reply Err Value Shared} {event after}, Inv s.shared →
    allow s (.env event) → m.env s.shared event = some after → Inv after ∧
    ∀ pid, view after pid = view s.shared pid

def Kept (Inv : Shared → Prop) (view : Shared → Pid → View)
    (Local : View → (c : Cmd) → Option (Reply c) → View → Prop)
    (duty : View → Cmd → Prop) (post : View → Except Err Value → Prop)
    (s : State Cmd Reply Err Value Shared) : Prop :=
  Inv s.shared ∧ ∀ pid code, s.threads pid = some code →
    Meets Local duty post code (view s.shared pid)

variable {Inv : Shared → Prop} {view : Shared → Pid → View}
  {Local : View → (c : Cmd) → Option (Reply c) → View → Prop}
  {duty : View → Cmd → Prop} {post : View → Except Err Value → Prop}

-- One goroutine's code after an act of some goroutine.
theorem updated_thread {threads : Pid → Option (Program Cmd Reply Err Value)}
    {changed : Option (Program Cmd Reply Err Value)}
    (here : Function.update threads pid changed other = some code) :
    other = pid ∧ changed = some code ∨ other ≠ pid ∧ threads other = some code := by
  by_cases same : other = pid
  · subst same
    rw [Function.update_self] at here
    exact .inl ⟨rfl,here⟩
  · rw [Function.update_of_ne same] at here
    exact .inr ⟨same,here⟩

theorem moves_kept (sound : Sound m allow Inv view Local duty post)
    (kept : Kept Inv view Local duty post s) (allowed : allow s act) (moves : Moves m s act next) :
    Kept Inv view Local duty post next := by
  obtain ⟨valid,meets⟩ := kept
  cases moves with
  | @spawn pid request shared accepted =>
      obtain ⟨after,fresh,frame⟩ := sound.accepts valid accepted
      refine ⟨after,fun other code here => ?_⟩
      rcases updated_thread here with ⟨rfl,started⟩ | ⟨different,there⟩
      · exact Option.some.inj started ▸ fresh
      · rw [frame other different]
        exact meets other code there
  | @wait pid c rest choice shared here ran =>
      obtain ⟨after,stepped,frame⟩ :=
        sound.executes valid here (meets_duty (meets pid _ here)) allowed ran
      refine ⟨after,fun other code there => ?_⟩
      by_cases same : other = pid
      · subst same
        rw [here] at there
        cases there
        exact meets_waiting (meets _ _ here) stepped
      · rw [frame other same]
        exact meets other code there
  | @reply pid c rest choice shared answer here ran =>
      obtain ⟨after,stepped,frame⟩ :=
        sound.executes valid here (meets_duty (meets pid _ here)) allowed ran
      refine ⟨after,fun other code there => ?_⟩
      rcases updated_thread there with ⟨rfl,continued⟩ | ⟨different,there⟩
      · exact Option.some.inj continued ▸ meets_reply (meets _ _ here) stepped
      · rw [frame other different]
        exact meets other code there
  | @kill pid code here =>
      obtain ⟨after,frame⟩ := sound.abandons pid valid
      refine ⟨after,fun other code there => ?_⟩
      rcases updated_thread there with ⟨_,gone⟩ | ⟨different,there⟩
      · cases gone
      · rw [frame other different]
        exact meets other code there
  | env ran =>
      obtain ⟨after,frame⟩ := sound.environs valid allowed ran
      refine ⟨after,fun pid code here => ?_⟩
      rw [frame pid]
      exact meets pid code here

theorem reached_kept (sound : Sound m allow Inv view Local duty post) (start : Inv init.shared)
    (idle : ∀ pid, init.threads pid = none) (path : Reached m allow init s) :
    Kept Inv view Local duty post s := by
  refine path.invariant _ ⟨start,fun pid code here => ?_⟩ fun _ kept allowed moves =>
    moves_kept sound kept allowed moves
  rw [idle] at here
  cases here

-- Every goroutine ends as its code can end.
theorem reached_returns {good : Value → Prop}
    (spawned : ∀ s pid request, allow s (.spawn pid request) → (m.code request).Returns good)
    (idle : ∀ pid, init.threads pid = none) (path : Reached m allow init s) :
    ∀ pid code, s.threads pid = some code → code.Returns good := by
  refine path.invariant (fun s => ∀ pid code, s.threads pid = some code → code.Returns good)
    (fun pid code here => ?_) fun {s act next} _ sofar allowed moves => ?_
  · rw [idle] at here
    cases here
  · cases moves with
    | spawn accepted =>
        intro other code here
        rcases updated_thread here with ⟨_,started⟩ | ⟨_,there⟩
        · exact Option.some.inj started ▸ spawned _ _ _ allowed
        · exact sofar other code there
    | wait _ _ => exact sofar
    | @reply pid c rest choice shared answer asked _ =>
        intro other code here
        rcases updated_thread here with ⟨_,continued⟩ | ⟨_,there⟩
        · exact Option.some.inj continued ▸ sofar pid _ asked answer
        · exact sofar other code there
    | kill _ =>
        intro other code here
        rcases updated_thread here with ⟨_,gone⟩ | ⟨_,there⟩
        · cases gone
        · exact sofar other code there
    | env _ => exact sofar

-- A goroutine's own part of a shared journal, newest first.
def own {Event : Type} (journal : List (Pid × Event)) (pid : Pid) : List Event :=
  journal.filterMap fun entry => if entry.1 = pid then some entry.2 else none

section Journal
variable {Event : Type} {journal : List (Pid × Event)} {event : Event} {pid other : Pid}

@[simp] theorem own_cons_self (journal : List (Pid × Event)) (pid : Pid) (event : Event) :
    own ((pid,event) :: journal) pid = event :: own journal pid := by
  simp [own]

theorem own_cons_other (journal : List (Pid × Event)) (event : Event) (different : other ≠ pid) :
    own ((pid,event) :: journal) other = own journal other := by
  simp [own,different.symm]

theorem own_append_self (journal : List (Pid × Event)) (pid : Pid) (events : List Event) :
    own (events.map (pid,·) ++ journal) pid = events ++ own journal pid := by
  induction events with
  | nil => rfl
  | cons event rest ih => exact (own_cons_self _ pid event).trans (congrArg (event :: ·) ih)

theorem own_append_other (journal : List (Pid × Event)) (events : List Event)
    (different : other ≠ pid) : own (events.map (pid,·) ++ journal) other = own journal other := by
  induction events with
  | nil => rfl
  | cons event rest ih => exact (own_cons_other _ event different).trans ih

theorem mem_own : event ∈ own journal pid ↔ (pid,event) ∈ journal := by
  simp only [own,List.mem_filterMap,Option.ite_none_right_eq_some,Option.some.injEq]
  constructor
  · rintro ⟨⟨who,what⟩,member,rfl,rfl⟩; exact member
  · intro member; exact ⟨_,member,rfl,rfl⟩

end Journal
end RestApi.Pool
