import RestApi.StreamConsumer

namespace RestApi.StreamConsumer
open Program Pool

-- Everything one command can have done, whatever the caller was told.
inductive Executed (r : Redis T) (pid : Pid) : (c : Cmd T) → Reply c → Redis T → Prop where
  | claimed (free : r.claims key = false) (told : answer = .ok ∨ answer = .err) :
      Executed r pid (.setNX key) answer
        ({r with claims := Function.update r.claims key true}.note pid (.claimed key))
  | duplicate (held : r.claims key = true) (told : answer = .missing ∨ answer = .err) :
      Executed r pid (.setNX key) answer (r.note pid (.duplicate key))
  | unclaimed : Executed r pid (.setNX key) .err r
  | released : Executed r pid (.del key) answer
      ({r with claims := Function.update r.claims key false}.note pid (.released key))
  | unreleased : Executed r pid (.del key) (.error ()) r
  | acked : Executed r pid (.xack entry) answer
      ({r with pel := Function.update r.pel entry none}.note pid (.acked entry))
  | unacked : Executed r pid (.xack entry) (.error ()) r
  | buried : Executed r pid (.xadd fields) answer
      ({r with dlq := fields :: r.dlq}.note pid (.buried fields))
  | unburied : Executed r pid (.xadd fields) (.error ()) r
  | pending : Executed r pid (.xpending entry) answer r
  | handled : Executed r pid (.handler sent) outcome (r.note pid (.returned sent outcome))
  | read : Executed r pid .now time r

theorem exec_executed {r after : Redis T} {c : Cmd T} {reply : Option (Reply c)}
    (ran : exec r pid c choice = some (after,reply)) :
    ∃ answer, reply = some answer ∧ Executed r pid c answer after := by
  cases c with
  | setNX key =>
      cases held : r.claims key <;> cases choice <;>
        simp only [exec,Redis.ran,held,Option.some.injEq,Prod.mk.injEq,reduceCtorEq] at ran
      all_goals obtain ⟨rfl,rfl⟩ := ran
      · exact ⟨_,rfl,.claimed held (.inl rfl)⟩
      · exact ⟨_,rfl,.claimed held (.inr rfl)⟩
      · exact ⟨_,rfl,.unclaimed⟩
      · exact ⟨_,rfl,.duplicate held (.inl rfl)⟩
      · exact ⟨_,rfl,.duplicate held (.inr rfl)⟩
      · exact ⟨_,rfl,.unclaimed⟩
  | del key =>
      cases choice <;> simp only [exec,Option.some.injEq,Prod.mk.injEq,reduceCtorEq] at ran
      all_goals obtain ⟨rfl,rfl⟩ := ran
      · exact ⟨_,rfl,.released⟩
      · exact ⟨_,rfl,.released⟩
      · exact ⟨_,rfl,.unreleased⟩
  | xack id =>
      cases choice <;> simp only [exec,Option.some.injEq,Prod.mk.injEq,reduceCtorEq] at ran
      all_goals obtain ⟨rfl,rfl⟩ := ran
      · exact ⟨_,rfl,.acked⟩
      · exact ⟨_,rfl,.acked⟩
      · exact ⟨_,rfl,.unacked⟩
  | xadd fields =>
      cases choice <;> simp only [exec,Option.some.injEq,Prod.mk.injEq,reduceCtorEq] at ran
      all_goals obtain ⟨rfl,rfl⟩ := ran
      · exact ⟨_,rfl,.buried⟩
      · exact ⟨_,rfl,.buried⟩
      · exact ⟨_,rfl,.unburied⟩
  | xpending id =>
      cases choice <;> simp only [exec,Option.some.injEq,Prod.mk.injEq,reduceCtorEq] at ran
      all_goals obtain ⟨rfl,rfl⟩ := ran; exact ⟨_,rfl,.pending⟩
  | handler env =>
      cases choice <;> simp only [exec,Option.some.injEq,Prod.mk.injEq,reduceCtorEq] at ran
      obtain ⟨rfl,rfl⟩ := ran
      exact ⟨_,rfl,.handled⟩
  | now =>
      cases choice <;> simp only [exec,Option.some.injEq,Prod.mk.injEq,reduceCtorEq] at ran
      obtain ⟨rfl,rfl⟩ := ran
      exact ⟨_,rfl,.read⟩

theorem own_note_self (r : Redis T) (pid : Pid) (event : Event T) :
    own (r.note pid event).journal pid = event :: own r.journal pid :=
  own_cons_self r.journal pid event

theorem own_note_other (r : Redis T) (event : Event T) (different : other ≠ pid) :
    own (r.note pid event).journal other = own r.journal other :=
  own_cons_other r.journal event different

structure View (T : Type) where
  message : Option XMessage
  events : List (Event T)

def view (r : Redis T) (pid : Pid) : View T := ⟨r.delivered pid,own r.journal pid⟩

-- What the caller may conclude from a reply about its own history.
inductive Emits : (c : Cmd T) → Reply c → List (Event T) → Prop where
  | claimed (told : answer = .ok ∨ answer = .err) : Emits (.setNX key) answer [.claimed key]
  | duplicate (told : answer = .missing ∨ answer = .err) :
      Emits (.setNX key) answer [.duplicate key]
  | unclaimed : Emits (.setNX key) .err []
  | released : Emits (.del key) answer [.released key]
  | unreleased : Emits (.del key) (.error ()) []
  | acked : Emits (.xack entry) answer [.acked entry]
  | unacked : Emits (.xack entry) (.error ()) []
  | buried : Emits (.xadd fields) answer [.buried fields]
  | unburied : Emits (.xadd fields) (.error ()) []
  | pending : Emits (.xpending entry) answer []
  | handled : Emits (.handler sent) outcome [.returned sent outcome]
  | read : Emits .now time []

-- `answers` are the replies the runs of a law can give.
def Local (answers : (c : Cmd T) → Reply c → Prop) (v : View T) (c : Cmd T)
    (reply : Option (Reply c)) (after : View T) : Prop :=
  ∃ answer events, reply = some answer ∧ answers c answer ∧ Emits c answer events ∧
    after = ⟨v.message,events ++ v.events⟩

theorem executed_journal {r after : Redis T} {c : Cmd T} {answer : Reply c}
    (done : Executed r pid c answer after) :
    ∃ events, Emits c answer events ∧ after.journal = events.map (pid,·) ++ r.journal := by
  cases done with
  | claimed _ told => exact ⟨_,.claimed told,rfl⟩
  | duplicate _ told => exact ⟨_,.duplicate told,rfl⟩
  | unclaimed => exact ⟨_,.unclaimed,rfl⟩
  | released => exact ⟨_,.released,rfl⟩
  | unreleased => exact ⟨_,.unreleased,rfl⟩
  | acked => exact ⟨_,.acked,rfl⟩
  | unacked => exact ⟨_,.unacked,rfl⟩
  | buried => exact ⟨_,.buried,rfl⟩
  | unburied => exact ⟨_,.unburied,rfl⟩
  | pending => exact ⟨_,.pending,rfl⟩
  | handled => exact ⟨_,.handled,rfl⟩
  | read => exact ⟨_,.read,rfl⟩

@[simp] theorem note_mem {r : Redis T} {event new : Event T} :
    (who,event) ∈ (r.note pid new).journal ↔ (who = pid ∧ event = new) ∨
      (who,event) ∈ r.journal := by
  simp [Redis.note]

-- Which command leaves which mark.
theorem executed_buried {r after : Redis T} {c : Cmd T} {answer : Reply c}
    (done : Executed r pid c answer after) (member : (who,.buried fields) ∈ after.journal) :
    fields ∈ after.dlq ∨ (who,.buried fields) ∈ r.journal := by
  cases done with
  | buried =>
      rcases note_mem.mp member with ⟨_,same⟩ | old
      · cases same; exact .inl List.mem_cons_self
      · exact .inr old
  | _ => exact .inr (by simpa using member)

theorem executed_duplicate {r after : Redis T} {c : Cmd T} {answer : Reply c}
    (done : Executed r pid c answer after) (member : (who,.duplicate key) ∈ after.journal) :
    (who = pid ∧ c = .setNX key ∧ r.claims key = true) ∨ (who,.duplicate key) ∈ r.journal := by
  cases done with
  | duplicate held _ =>
      rcases note_mem.mp member with ⟨rfl,same⟩ | old
      · cases same; exact .inl ⟨rfl,rfl,held⟩
      · exact .inr old
  | _ => exact .inr (by simpa using member)

theorem executed_acked {r after : Redis T} {c : Cmd T} {answer : Reply c}
    (done : Executed r pid c answer after) (member : (who,.acked entry) ∈ after.journal) :
    (who = pid ∧ c = .xack entry) ∨ (who,.acked entry) ∈ r.journal := by
  cases done with
  | acked =>
      rcases note_mem.mp member with ⟨rfl,same⟩ | old
      · cases same; exact .inl ⟨rfl,rfl⟩
      · exact .inr old
  | _ => exact .inr (by simpa using member)

theorem executed_kept {r after : Redis T} {c : Cmd T} {answer : Reply c}
    (done : Executed r pid c answer after) :
    after.delivered = r.delivered ∧ after.entries = r.entries ∧ r.dlq ⊆ after.dlq := by
  cases done <;> simp [Redis.note]

theorem executed_local {r after : Redis T} {c : Cmd T} {answer : Reply c}
    {answers : (c : Cmd T) → Reply c → Prop} (done : Executed r pid c answer after)
    (told : answers c answer) : Local answers (view r pid) c (some answer) (view after pid) := by
  obtain ⟨events,emitted,journal⟩ := executed_journal done
  exact ⟨answer,events,rfl,told,emitted,
    by simp [view,journal,own_append_self,(executed_kept done).1]⟩

theorem executed_frame {r after : Redis T} {c : Cmd T} {answer : Reply c}
    (done : Executed r pid c answer after) (different : other ≠ pid) :
    view after other = view r other := by
  obtain ⟨events,_,journal⟩ := executed_journal done
  simp [view,journal,own_append_other _ _ different,(executed_kept done).1]

theorem meets_call {answers : (c : Cmd T) → Reply c → Prop} {duty : View T → Cmd T → Prop}
    {post : View T → Except String Unit → Prop} {c : Cmd T} {next : Reply c → Handling T}
    {v : View T} (owed : duty v c)
    (continues : ∀ answer events, answers c answer → Emits c answer events →
      Meets (Local answers) duty post (next answer) ⟨v.message,events ++ v.events⟩) :
    Meets (Local answers) duty post (.call c next) v := by
  intro middle waited
  have still : middle = v := by
    induction waited with
    | refl => rfl
    | tail _ stepped _ => obtain ⟨_,_,impossible,_⟩ := stepped; cases impossible
  subst still
  refine ⟨owed,fun reply after stepped => ?_⟩
  obtain ⟨_,events,same,told,emitted,rfl⟩ := stepped
  cases same
  exact continues _ events told emitted

-- A first delivery counts one, every other delivery one more.
theorem accept_counts {r after : Redis T} {d : Delivery} (accepted : accept r pid d = some after) :
    r.delivered pid = none ∧ d.message ∈ r.entries ∧ ∃ count,
      (d.message.id ∉ r.read ∧ count = 1 ∨ ∃ before, r.pel d.message.id = some before ∧
        count = before+1) ∧ after =
      {r with
        pel := Function.update r.pel d.message.id (some count)
        read := d.message.id :: r.read
        delivered := Function.update r.delivered pid (some d.message)} := by
  unfold accept at accepted
  dsimp only at accepted
  split at accepted
  · rename_i ready
    refine ⟨ready.1,ready.2,?_⟩
    cases d with
    | first m =>
        simp only [Option.ite_none_left_eq_some,Option.some.injEq] at accepted
        exact ⟨1,.inl ⟨accepted.1,rfl⟩,accepted.2.symm⟩
    | again m =>
        obtain ⟨before,pending,rfl⟩ := Option.map_eq_some_iff.mp accepted
        exact ⟨before+1,.inr ⟨before,pending,rfl⟩,rfl⟩
  · cases accepted

theorem accept_parts {r after : Redis T} {d : Delivery} (accepted : accept r pid d = some after) :
    r.delivered pid = none ∧ d.message ∈ r.entries ∧ ∃ count, after =
      {r with
        pel := Function.update r.pel d.message.id (some count)
        read := d.message.id :: r.read
        delivered := Function.update r.delivered pid (some d.message)} := by
  obtain ⟨idle,present,count,_,same⟩ := accept_counts accepted
  exact ⟨idle,present,count,same⟩

theorem accept_view {r after : Redis T} {d : Delivery} (accepted : accept r pid d = some after) :
    view after pid = ⟨some d.message,own r.journal pid⟩ := by
  obtain ⟨_,_,count,rfl⟩ := accept_parts accepted
  simp [view]

theorem accept_frame {r after : Redis T} {d : Delivery} (accepted : accept r pid d = some after)
    (different : other ≠ pid) : view after other = view r other := by
  obtain ⟨_,_,count,rfl⟩ := accept_parts accepted
  simp [view,Function.update_of_ne different]

theorem env_frame {r after : Redis T} (ran : env r event = some after) :
    after.journal = r.journal ∧ after.dlq = r.dlq ∧ after.delivered = r.delivered := by
  cases event with
  | produce m =>
      simp only [env,Option.ite_none_right_eq_some,Option.some.injEq] at ran
      obtain ⟨_,rfl⟩ := ran
      exact ⟨rfl,rfl,rfl⟩
  | expire key => cases ran; exact ⟨rfl,rfl,rfl⟩
  | dropped id =>
      obtain ⟨count,_,rfl⟩ := Option.map_eq_some_iff.mp ran
      exact ⟨rfl,rfl,rfl⟩

theorem env_entries {r after : Redis T}
    (distinct : ∀ a ∈ r.entries, ∀ b ∈ r.entries, a.id = b.id → a = b)
    (ran : env r event = some after) :
    (∀ a ∈ after.entries, ∀ b ∈ after.entries, a.id = b.id → a = b) ∧
      r.entries ⊆ after.entries := by
  cases event with
  | produce m =>
      simp only [env,Option.ite_none_right_eq_some,Option.some.injEq] at ran
      obtain ⟨fresh,rfl⟩ := ran
      refine ⟨?_,List.subset_cons_self m r.entries⟩
      intro a first b second same
      rcases List.mem_cons.mp first with rfl | older
      · rcases List.mem_cons.mp second with rfl | other
        · rfl
        · exact absurd same.symm (fresh b other)
      · rcases List.mem_cons.mp second with rfl | other
        · exact absurd same (fresh a older)
        · exact distinct a older b other same
  | expire key => cases ran; exact ⟨distinct,List.Subset.refl _⟩
  | dropped id =>
      obtain ⟨count,_,rfl⟩ := Option.map_eq_some_iff.mp ran
      exact ⟨distinct,List.Subset.refl _⟩

-- No goroutine has a history before its delivery.
def Unborn (r : Redis T) : Prop := ∀ pid, r.delivered pid = none → own r.journal pid = []

theorem accept_unborn {r after : Redis T} {d : Delivery} (valid : Unborn r)
    (accepted : accept r pid d = some after) : Unborn after := by
  obtain ⟨_,_,count,rfl⟩ := accept_parts accepted
  intro other absent
  by_cases same : other = pid
  · subst same; simp at absent
  · exact valid other (by simpa [Function.update_of_ne same] using absent)

theorem executed_unborn {r after : Redis T} {c : Cmd T} {answer : Reply c} (valid : Unborn r)
    (delivered : r.delivered pid ≠ none) (done : Executed r pid c answer after) : Unborn after := by
  intro other absent
  rw [(executed_kept done).1] at absent
  by_cases same : other = pid
  · exact absurd (same ▸ absent) delivered
  · exact (congrArg View.events (executed_frame done same)).trans (valid other absent)

theorem env_unborn {r after : Redis T} (valid : Unborn r)
    (ran : env r event = some after) : Unborn after := by
  obtain ⟨journal,_,delivered⟩ := env_frame ran
  intro pid absent
  rw [journal]
  exact valid pid (delivered ▸ absent)

theorem accept_stored {r after : Redis T} {d : Delivery}
    (stored : ∀ pid m, r.delivered pid = some m → m ∈ r.entries)
    (accepted : accept r pid d = some after) :
    ∀ pid m, after.delivered pid = some m → m ∈ after.entries := by
  obtain ⟨_,present,count,rfl⟩ := accept_parts accepted
  intro who m message
  by_cases same : who = pid
  · subst same
    simp only [Function.update_self,Option.some.injEq] at message
    exact message ▸ present
  · exact stored who m (by simpa [Function.update_of_ne same] using message)

abbrev Workers (T : Type) := State (Cmd T) Reply String Unit (Redis T)

-- The dedup key of the SET NX a goroutine is about to send.
def claiming (s : Workers T) (pid : Pid) : Option String := match s.threads pid with
  | some (.call (.setNX key) _) => some key
  | _ => none

end RestApi.StreamConsumer
