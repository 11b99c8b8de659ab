import Mathlib.Logic.Relation

namespace RestApi

-- Sequential code of one goroutine. `call` hands one command to the outside
-- world and waits for its reply; `fail` is an error (or a panic) on its way up.
inductive Program (Cmd : Type) (Reply : Cmd → Type) (Err α : Type) where
  | done (value : α)
  | fail (error : Err)
  | call (command : Cmd) (next : Reply command → Program Cmd Reply Err α)

namespace Program
variable {Cmd : Type} {Reply : Cmd → Type} {Err α β γ : Type}

-- Runs `next` on whatever the program ends with, a value or an error.
def settle :
    Program Cmd Reply Err α → (Except Err α → Program Cmd Reply Err β) → Program Cmd Reply Err β
  | .done value,next => next (.ok value)
  | .fail error,next => next (.error error)
  | .call command rest,next => .call command fun reply => (rest reply).settle next

def bind (program : Program Cmd Reply Err α)
    (next : α → Program Cmd Reply Err β) : Program Cmd Reply Err β :=
  program.settle fun
    | .ok value => next value
    | .error error => .fail error

def catching (program : Program Cmd Reply Err α) (handler : Err → Program Cmd Reply Err α) :
    Program Cmd Reply Err α :=
  program.settle fun
    | .ok value => .done value
    | .error error => handler error

instance : Monad (Program Cmd Reply Err) where
  pure := .done
  bind := bind

instance : MonadExceptOf Err (Program Cmd Reply Err) where
  throw := .fail
  tryCatch := catching

@[simp] theorem pure_eq (value : α) : (pure value : Program Cmd Reply Err α) = .done value := rfl
@[simp] theorem throw_eq (error : Err) : (throw error : Program Cmd Reply Err α) = .fail error :=
  rfl
@[simp] theorem bind_eq (program : Program Cmd Reply Err α) (next : α → Program Cmd Reply Err β) :
    (program >>= next) = program.bind next := rfl

theorem bind_assoc (program : Program Cmd Reply Err α) (first : α → Program Cmd Reply Err β)
    (second : β → Program Cmd Reply Err γ) :
    (program.bind first).bind second = program.bind fun value => (first value).bind second := by
  induction program with
  | done value => rfl
  | fail error => rfl
  | call c rest ih => exact congrArg (Program.call c) (funext ih)

-- One process as its own code sees the world: `Local view c (some r) after` is a
-- completed command, `Local view c none after` a command that is still going on.
variable {View : Type} (Local : View → (c : Cmd) → Option (Reply c) → View → Prop)

def Waits (c : Cmd) : View → View → Prop :=
  Relation.ReflTransGen fun view after => Local view c none after

-- `duty` is owed at every command the code reaches, also while that command
-- waits; `post` at its end. Others act only between two local steps, and every
-- local fact is stable under what they do, so the rule is sequential.
def Meets (duty : View → Cmd → Prop) (post : View → Except Err α → Prop) :
    Program Cmd Reply Err α → View → Prop
  | .done value,view => post view (.ok value)
  | .fail error,view => post view (.error error)
  | .call c next,view => ∀ middle, Waits Local c view middle →
      duty middle c ∧ ∀ reply after, Local middle c (some reply) after →
        Meets duty post (next reply) after

variable {Local} {duty duty' : View → Cmd → Prop} {post post' : View → Except Err α → Prop}
  {program : Program Cmd Reply Err α} {view : View}

theorem meets_settle {next : Except Err α → Program Cmd Reply Err β}
    {final : View → Except Err β → Prop}
    (first : Meets Local duty (fun after result => Meets Local duty final
      (next result) after) program view) : Meets Local duty final (program.settle next) view := by
  induction program generalizing view with
  | done value => exact first
  | fail error => exact first
  | call c rest ih =>
      intro middle waited
      obtain ⟨owed,continues⟩ := first middle waited
      exact ⟨owed,fun reply after stepped => ih reply (continues reply after stepped)⟩

theorem meets_mono (weaker : ∀ view c, duty view c → duty' view c)
    (final : ∀ view result, post view result → post' view result)
    (meets : Meets Local duty post program view) : Meets Local duty' post' program view := by
  induction program generalizing view with
  | done value => exact final _ _ meets
  | fail error => exact final _ _ meets
  | call c rest ih =>
      intro middle waited
      obtain ⟨owed,continues⟩ := meets middle waited
      exact ⟨weaker _ _ owed,fun reply after stepped => ih reply (continues reply after stepped)⟩

theorem meets_bind {next : α → Program Cmd Reply Err β} {final : View → Except Err β → Prop}
    (first : Meets Local duty (fun after result => match result with
      | .ok value => Meets Local duty final (next value) after
      | .error error => final after (.error error)) program view) :
    Meets Local duty final (program.bind next) view := by
  apply meets_settle
  refine meets_mono (fun _ _ owed => owed) ?_ first
  intro after result held
  cases result <;> exact held

-- A fact no command the code issues can take away may be used everywhere.
theorem meets_stable (Fact : View → Prop)
    (stable : ∀ view c reply after, duty view c → Local view c reply after → Fact view → Fact after)
    (holds : Fact view) (meets : Meets Local duty post program view) :
    Meets Local (fun view c => Fact view ∧ duty view c) (fun view result => Fact view ∧
      post view result) program view := by
  induction program generalizing view with
  | done value => exact ⟨holds,meets⟩
  | fail error => exact ⟨holds,meets⟩
  | call c rest ih =>
      intro middle waited
      have still : Fact middle := by
        induction waited with
        | refl => exact holds
        | tail sofar stepped ih => exact stable _ _ _ _ (meets _ sofar).1 stepped ih
      obtain ⟨owed,continues⟩ := meets middle waited
      exact ⟨⟨still,owed⟩,fun reply after stepped =>
        ih reply (stable _ _ _ _ owed stepped still) (continues reply after stepped)⟩

-- What a process in the middle of its code still owes.
theorem meets_duty {c : Cmd} {next : Reply c → Program Cmd Reply Err α}
    (meets : Meets Local duty post (.call c next) view) : duty view c := (meets view .refl).1

theorem meets_waiting {c : Cmd} {next : Reply c → Program Cmd Reply Err α} {after : View}
    (meets : Meets Local duty post (.call c next) view) (stepped : Local view c none after) :
    Meets Local duty post (.call c next) after :=
  fun middle waited => meets middle (Relation.ReflTransGen.head stepped waited)

theorem meets_reply {c : Cmd} {next : Reply c → Program Cmd Reply Err α} {reply : Reply c}
    {after : View} (meets : Meets Local duty post (.call c next) view)
    (stepped : Local view c (some reply) after) : Meets Local duty post (next reply) after :=
  (meets view .refl).2 reply after stepped

-- What the code can end with, whatever it is told on the way.
def Returns (good : α → Prop) : Program Cmd Reply Err α → Prop
  | .done value => good value
  | .fail _ => True
  | .call _ next => ∀ reply, Returns good (next reply)

theorem returns_any (program : Program Cmd Reply Err α) : Returns (fun _ => True) program := by
  induction program with
  | done value => trivial
  | fail error => trivial
  | call c rest ih => exact fun reply => ih reply

theorem returns_settle {early : α → Prop} {good : β → Prop}
    {next : Except Err α → Program Cmd Reply Err β} (first : Returns early program)
    (after : ∀ value, early value → Returns good (next (.ok value)))
    (failed : ∀ error, Returns good (next (.error error))) :
    Returns good (program.settle next) := by
  induction program with
  | done value => exact after value first
  | fail error => exact failed error
  | call c rest ih => exact fun reply => ih reply (first reply)

theorem returns_bind {good : β → Prop} {next : α → Program Cmd Reply Err β}
    (after : ∀ value, Returns good (next value)) : Returns good (program.bind next) :=
  returns_settle (returns_any program) (fun value _ => after value) fun _ => trivial

-- A world that only limits what the commands may be answered.
def Heard (told : (c : Cmd) → Reply c → Prop) (view : View) (c : Cmd) (reply : Option (Reply c))
    (after : View) : Prop :=
  after = view ∧ ∀ answer, reply = some answer → told c answer

theorem meets_heard {told : (c : Cmd) → Reply c → Prop} {c : Cmd}
    {next : Reply c → Program Cmd Reply Err α} (owed : duty view c)
    (continues : ∀ reply, told c reply → Meets (Heard told) duty post (next reply) view) :
    Meets (Heard told) duty post (.call c next) view := by
  intro middle waited
  have still : middle = view := by
    induction waited with
    | refl => rfl
    | tail _ stepped ih => exact stepped.1.trans ih
  subst still
  refine ⟨owed,fun reply after stepped => ?_⟩
  obtain ⟨rfl,said⟩ := stepped
  exact continues reply (said reply rfl)

theorem meets_always {told : (c : Cmd) → Reply c → Prop} (owed : ∀ c, duty view c)
    (final : ∀ result, post view result) (program : Program Cmd Reply Err α) :
    Meets (Heard told) duty post program view := by
  induction program with
  | done value => exact final _
  | fail error => exact final _
  | call c rest ih => exact meets_heard (owed c) fun reply _ => ih reply

-- One complete execution with nobody else around.
inductive Runs (Local : View → (c : Cmd) → Option (Reply c) → View → Prop) :
    Program Cmd Reply Err α → View → Except Err α → View → Prop where
  | done : Runs Local (.done value) here (.ok value) here
  | fail : Runs Local (.fail error) here (.error error) here
  | call (stepped : Local here c (some reply) middle)
      (rest : Runs Local (next reply) middle result last) :
      Runs Local (.call c next) here result last

theorem runs_settle {next : Except Err α → Program Cmd Reply Err β} {middle last : View}
    {final : Except Err β} (first : Runs Local program view result middle)
    (second : Runs Local (next result) middle final last) :
    Runs Local (program.settle next) view final last := by
  induction first with
  | done => exact second
  | fail => exact second
  | call stepped _ ih => exact .call stepped (ih second)

theorem runs_bind {next : α → Program Cmd Reply Err β} {middle last : View} {value : α}
    {final : Except Err β} (first : Runs Local program view (.ok value) middle)
    (second : Runs Local (next value) middle final last) :
    Runs Local (program.bind next) view final last :=
  runs_settle first second

theorem runs_settle_parts {next : Except Err α → Program Cmd Reply Err β} {last : View}
    {final : Except Err β} (ran : Runs Local (program.settle next) view final last) :
    ∃ result middle, Runs Local program view result middle ∧
      Runs Local (next result) middle final last := by
  induction program generalizing view with
  | done value => exact ⟨_,_,.done,ran⟩
  | fail error => exact ⟨_,_,.fail,ran⟩
  | call c rest ih =>
      cases ran with
      | call stepped rest =>
          obtain ⟨result,middle,first,second⟩ := ih _ rest
          exact ⟨result,middle,.call stepped first,second⟩

-- A sequence that succeeds has succeeded in both halves.
theorem runs_bind_parts {next : α → Program Cmd Reply Err β} {last : View} {value : β}
    (ran : Runs Local (program.bind next) view (.ok value) last) :
    ∃ first middle, Runs Local program view (.ok first) middle ∧
      Runs Local (next first) middle (.ok value) last := by
  obtain ⟨result,middle,first,second⟩ := runs_settle_parts ran
  cases result with
  | ok value => exact ⟨value,middle,first,second⟩
  | error error => cases second

end Program
end RestApi
