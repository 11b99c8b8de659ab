import RestApi.Pool

namespace RestApi.Protocols
open Pool Program

-- The order in which code may issue its commands: what a phase allows, and the
-- phase a reply leads to.
structure Protocol (Cmd : Type) (Reply : Cmd → Type) (Phase : Type) where
  allows : Phase → Cmd → Prop
  after : Phase → (c : Cmd) → Reply c → Phase

variable {Cmd : Type} {Reply : Cmd → Type} {Err α β Phase : Type}

-- A command that is still going on leaves the phase as it is.
def Protocol.moved (rules : Protocol Cmd Reply Phase) (phase : Phase) (c : Cmd)
    (reply : Option (Reply c)) : Phase :=
  reply.elim phase (rules.after phase c)

def Scripted (rules : Protocol Cmd Reply Phase) (phase : Phase) (c : Cmd) (reply : Option (Reply c))
    (next : Phase) : Prop :=
  next = rules.moved phase c reply

-- Code that keeps to a protocol whatever it is told.
abbrev Follows (rules : Protocol Cmd Reply Phase) (ends : Phase → Except Err α → Prop)
    (program : Program Cmd Reply Err α) (phase : Phase) : Prop :=
  Meets (Scripted rules) rules.allows ends program phase

variable {rules : Protocol Cmd Reply Phase} {phase : Phase}

theorem follows_call {ends : Phase → Except Err α → Prop} {c : Cmd}
    {next : Reply c → Program Cmd Reply Err α} (allowed : rules.allows phase c)
    (continues : ∀ reply, Follows rules ends (next reply) (rules.after phase c reply)) :
    Follows rules ends (.call c next) phase := by
  intro middle waited
  have still : middle = phase := by
    induction waited with
    | refl => rfl
    | tail _ stepped ih => exact stepped.trans ih
  subst still
  refine ⟨allowed,fun reply after stepped => ?_⟩
  obtain rfl : after = rules.after middle c reply := stepped
  exact continues reply

-- What every allowed command satisfies in any view is met in all of them.
theorem follows_meets {View : Type} {Local : View → (c : Cmd) → Option (Reply c) → View → Prop}
    {duty : View → Cmd → Prop} {ends : Phase → Except Err α → Prop}
    {program : Program Cmd Reply Err α} {view : View}
    (owed : ∀ phase view c, rules.allows phase c → duty view c)
    (follows : Follows rules ends program phase) :
    Meets Local duty (fun _ _ => True) program view := by
  induction program generalizing phase view with
  | done value => trivial
  | fail error => trivial
  | call c rest ih =>
      refine fun middle _ => ⟨owed phase middle c (meets_duty follows),fun reply after _ => ?_⟩
      exact ih reply (meets_reply follows rfl)

section Runs
variable {Value Shared Request Choice Env : Type}
  {m : Machine Cmd Reply Err Value Shared Request Choice Env}
  {allow : State Cmd Reply Err Value Shared → Act Request Choice Env → Prop}
  {init s : State Cmd Reply Err Value Shared}

-- What a machine owes so that an invariant of the shared state and of the phases
-- of all goroutines survives every act. The phases are bookkeeping: a goroutine
-- starts in `first` of its request and leaves `gone` behind when it dies.
structure Guarded (m : Machine Cmd Reply Err Value Shared Request Choice Env)
    (allow : State Cmd Reply Err Value Shared → Act Request Choice Env → Prop)
    (init : State Cmd Reply Err Value Shared) (rules : Protocol Cmd Reply Phase)
    (first : Request → Phase) (gone : Phase) (Inv : Shared → (Pid → Phase) → Prop) : Prop where
  accepts : ∀ {s : State Cmd Reply Err Value Shared} {phases pid request after},
    Reached m allow init s → (s.threads pid = none → phases pid = gone) → Inv s.shared phases →
    m.accept s.shared pid request = some after →
    Inv after (Function.update phases pid (first request))
  executes : ∀ {s : State Cmd Reply Err Value Shared} {phases pid c next choice after reply},
    Reached m allow init s → Inv s.shared phases → s.threads pid = some (.call c next) →
    rules.allows (phases pid) c → allow s (.step pid choice) →
    m.exec s.shared pid c choice = some (after,reply) →
    Inv after (Function.update phases pid (rules.moved (phases pid) c reply))
  abandons : ∀ {shared phases} (pid : Pid), Inv shared phases →
    Inv (m.abandon shared pid) (Function.update phases pid gone)
  environs : ∀ {s : State Cmd Reply Err Value Shared} {phases event after}, Inv s.shared phases →
    allow s (.env event) → m.env s.shared event = some after → Inv after phases

variable {first : Request → Phase} {gone : Phase} {Inv : Shared → (Pid → Phase) → Prop}
  {ends : Phase → Except Err Value → Prop}

-- Every goroutine is in the phase its remaining code starts from.
def Phased (rules : Protocol Cmd Reply Phase) (ends : Phase → Except Err Value → Prop)
    (gone : Phase) (s : State Cmd Reply Err Value Shared) (phases : Pid → Phase) : Prop :=
  (∀ pid code, s.threads pid = some code → Follows rules ends code (phases pid)) ∧
    ∀ pid, s.threads pid = none → phases pid = gone

theorem phased_set {shared : Shared} {phases : Pid → Phase} {code : Program Cmd Reply Err Value}
    {next : Phase} (phased : Phased rules ends gone s phases)
    (follows : Follows rules ends code next) (pid : Pid) :
    Phased rules ends gone ⟨shared,Function.update s.threads pid (some code)⟩
      (Function.update phases pid next) := by
  refine ⟨fun other code there => ?_,fun other absent => ?_⟩
  · rcases updated_thread there with ⟨rfl,same⟩ | ⟨different,there⟩
    · cases same
      rwa [Function.update_self]
    · rw [Function.update_of_ne different]
      exact phased.1 other code there
  · by_cases same : other = pid
    · subst same
      simp at absent
    · simp only [Function.update_of_ne same] at absent ⊢
      exact phased.2 other absent

theorem reached_phases (guarded : Guarded m allow init rules first gone Inv)
    (code : ∀ request, Follows rules ends (m.code request) (first request))
    (start : Inv init.shared fun _ => gone) (idle : ∀ pid, init.threads pid = none)
    (path : Reached m allow init s) :
    ∃ phases, Inv s.shared phases ∧ Phased rules ends gone s phases := by
  refine path.invariant (fun s => ∃ phases, Inv s.shared phases ∧ Phased rules ends gone s phases)
    ⟨_,start,fun pid code here => ?_,fun _ _ => rfl⟩
      fun {s act next} prior sofar allowed moves => ?_
  · rw [idle] at here
    cases here
  · obtain ⟨phases,inv,phased⟩ := sofar
    cases moves with
    | @spawn pid request shared accepted =>
        exact ⟨_,guarded.accepts prior (phased.2 pid) inv accepted,
          phased_set phased (code request) pid⟩
    | @wait pid c rest choice shared here ran =>
        have kept := guarded.executes prior inv here (meets_duty (phased.1 pid _ here)) allowed ran
        rw [Protocol.moved,Option.elim_none,Function.update_eq_self] at kept
        exact ⟨phases,kept,phased⟩
    | @reply pid c rest choice shared answer here ran =>
        exact ⟨_,guarded.executes prior inv here (meets_duty (phased.1 pid _ here)) allowed ran,
          phased_set phased (meets_reply (phased.1 pid _ here) rfl) pid⟩
    | @kill pid code here =>
        refine ⟨_,guarded.abandons pid inv,fun other code there => ?_,fun other absent => ?_⟩
        · rcases updated_thread there with ⟨_,same⟩ | ⟨different,there⟩
          · cases same
          · rw [Function.update_of_ne different]
            exact phased.1 other code there
        · by_cases same : other = pid
          · subst same
            exact Function.update_self ..
          · simp only [Function.update_of_ne same] at absent ⊢
            exact phased.2 other absent
    | env ran => exact ⟨phases,guarded.environs inv allowed ran,phased⟩

end Runs
end RestApi.Protocols
