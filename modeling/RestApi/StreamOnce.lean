import RestApi.StreamView

namespace RestApi.StreamConsumer
open Program Pool

section Once
variable {T : Type} (stream envelope : String)

-- No owner is stored with the dedup key; whose it is shows only in the journal.
-- Newest first: the latest claim or release of the key decides.
def holds (key : String) : List (Event T) → Bool
  | [] => false
  | .claimed other :: rest => if other = key then true else holds key rest
  | .released other :: rest => if other = key then false else holds key rest
  | _ :: rest => holds key rest

def succeeds (key : String) : Event T → Bool
  | .returned sent .success => dedupKey stream sent.id = key
  | _ => false

def returnsNil : Event T → Bool
  | .returned sent .success => sent.id = envelope
  | _ => false

-- How often the handler has returned nil for one envelope ID.
def successes (journal : List (Pid × Event T)) : Nat :=
  journal.countP fun entry => returnsNil envelope entry.2

-- The only replies ruled out: an error of the SET NX claim itself, and the
-- seven-day expiry of that claim.
def ClaimAnswered (s : Workers T) : Act Delivery Choice Surroundings → Prop
  | .step pid choice => claiming s pid = some (dedupKey stream envelope) → choice = .runs
  | .env (.expire key) => key ≠ dedupKey stream envelope
  | _ => True

instance (s : Workers T) (act : Act Delivery Choice Surroundings) :
    Decidable (ClaimAnswered stream envelope s act) :=
  match act with
  | .step pid choice =>
      inferInstanceAs (Decidable (claiming s pid = some (dedupKey stream envelope) →
        choice = .runs))
  | .env (.expire key) => inferInstanceAs (Decidable (key ≠ dedupKey stream envelope))
  | .env (.produce _) => .isTrue trivial
  | .env (.dropped _) => .isTrue trivial
  | .spawn _ _ => .isTrue trivial
  | .kill _ => .isTrue trivial

def claimAnswers (key : String) : (c : Cmd T) → Reply c → Prop
  | .setNX asked,answer => asked = key → answer ≠ .err
  | _,_ => True

-- Only a goroutine that holds the claim and has not succeeded may run the
-- handler or release the claim.
def Holding (key : String) (v : View T) : Prop :=
  holds key v.events = true ∧ ∀ event ∈ v.events, succeeds stream key event = false

def claimDuty (key : String) (v : View T) (c : Cmd T) : Prop := v.message ≠ none ∧ match c with
  | .handler sent => dedupKey stream sent.id = key → Holding stream key v
  | .del released => released = key → Holding stream key v
  | _ => True

structure OnceInvariant (key : String) (r : Redis T) : Prop where
  held : ∀ pid, holds key (own r.journal pid) = true → r.claims key = true
  unique : ∀ p q, holds key (own r.journal p) = true → holds key (own r.journal q) = true → p = q
  kept : ∀ pid event, (pid,event) ∈ r.journal → succeeds stream key event = true →
    holds key (own r.journal pid) = true
  once : r.journal.countP (fun entry => succeeds stream key entry.2) ≤ 1

variable {stream envelope} {key : String} {r after : Redis T}

-- An event that neither moves the claim nor finishes the envelope.
def Neutral (stream key : String) (event : Event T) : Prop :=
  (∀ past, holds key (event :: past) = holds key past) ∧ succeeds stream key event = false

theorem note_neutral (valid : OnceInvariant stream key r) (neutral : Neutral stream key event) :
    OnceInvariant stream key (r.note pid event) := by
  have same (who : Pid) : holds key (own (r.note pid event).journal who) = holds key
      (own r.journal who) := by
    by_cases self : who = pid
    · rw [self,own_note_self,neutral.1]
    · rw [own_note_other _ _ self]
  refine ⟨?_,?_,?_,?_⟩
  · intro who holding; exact valid.held who (same who ▸ holding)
  · intro p q first second; exact valid.unique p q (same p ▸ first) (same q ▸ second)
  · intro who marked member done
    rw [same]
    rcases note_mem.mp member with ⟨_,rfl⟩ | old
    · rw [neutral.2] at done; cases done
    · exact valid.kept who marked old done
  · simpa [Redis.note,neutral.2] using valid.once

-- Nobody holds a key that is free, so nobody has finished it either.
theorem free_unheld (valid : OnceInvariant stream key r) (free : r.claims key = false) (pid : Pid) :
    holds key (own r.journal pid) = false := by
  by_contra holding
  simp only [Bool.not_eq_false] at holding
  rw [valid.held pid holding] at free
  cases free

theorem claimed_once (valid : OnceInvariant stream key r) (free : r.claims key = false) :
    OnceInvariant stream key ({r with claims := Function.update r.claims key true}.note pid
      (.claimed key)) := by
  refine ⟨?_,?_,?_,?_⟩
  · intro who _; simp [Redis.note]
  · have mine (who : Pid) (holding : holds key (own
        ({r with claims := Function.update r.claims key true}.note pid
            (.claimed key)).journal who) = true) : who = pid := by
      by_contra different
      rw [own_note_other _ _ different] at holding
      exact absurd holding (by simp [free_unheld valid free who])
    intro p q first second
    rw [mine p first,mine q second]
  · intro who event member done
    rcases note_mem.mp member with ⟨_,rfl⟩ | old
    · cases done
    · exact absurd (valid.kept who event old done) (by simp [free_unheld valid free who])
  · simpa [Redis.note,succeeds] using valid.once

theorem released_once (valid : OnceInvariant stream key r)
    (holding : Holding stream key (view r pid)) :
    OnceInvariant stream key ({r with claims := Function.update r.claims key false}.note pid
      (.released key)) := by
  have gone (who : Pid) : holds key (own
      ({r with claims := Function.update r.claims key false}.note pid
          (.released key)).journal who) = false := by
    by_cases self : who = pid
    · rw [self,own_note_self]; simp [holds]
    · rw [own_note_other _ _ self]
      by_contra other
      exact self (valid.unique who pid (by simpa using other) holding.1)
  refine ⟨?_,?_,?_,?_⟩
  · intro who other; rw [gone] at other; cases other
  · intro p _ first; rw [gone] at first; cases first
  · intro who event member done
    rcases note_mem.mp member with ⟨_,rfl⟩ | old
    · cases done
    · have self := valid.unique who pid (valid.kept who event old done) holding.1
      subst self
      rw [holding.2 event (mem_own.mpr old)] at done
      cases done
  · simpa [Redis.note,succeeds] using valid.once

theorem returned_once (valid : OnceInvariant stream key r)
    (holding : Holding stream key (view r pid)) :
    OnceInvariant stream key (r.note pid (.returned sent outcome)) := by
  have same (who : Pid) :
      holds key (own (r.note pid (.returned sent outcome)).journal who) = holds key
          (own r.journal who) := by
    by_cases self : who = pid
    · rw [self,own_note_self]; rfl
    · rw [own_note_other _ _ self]
  have first : r.journal.countP (fun entry => succeeds stream key entry.2) = 0 := by
    rw [List.countP_eq_zero]
    rintro ⟨who,event⟩ member done
    have self := valid.unique who pid (valid.kept who event member done) holding.1
    subst self
    rw [holding.2 event (mem_own.mpr member)] at done
    cases done
  refine ⟨?_,?_,?_,?_⟩
  · intro who other; exact valid.held who (same who ▸ other)
  · intro p q one two; exact valid.unique p q (same p ▸ one) (same q ▸ two)
  · intro who event member done
    rw [same]
    rcases note_mem.mp member with ⟨rfl,_⟩ | old
    · exact holding.1
    · exact valid.kept who event old done
  · simp only [Redis.note,List.countP_cons,first]
    split <;> omega

theorem empty_once : OnceInvariant stream key (Redis.empty : Redis T) := by
  constructor <;> simp [Redis.empty,own,holds]

theorem nil_succeeds {event : Event T} (done : returnsNil envelope event = true) :
    succeeds stream (dedupKey stream envelope) event = true := by
  cases event with
  | returned sent outcome => cases outcome <;> simp_all [returnsNil,succeeds]
  | _ => cases done

-- Claims and releases of other keys.
theorem elsewhere_once (valid : OnceInvariant stream key r) (different : other ≠ key) :
    OnceInvariant stream key {r with claims := Function.update r.claims other held} :=
  ⟨fun pid holding => (Function.update_of_ne (Ne.symm different) _ _).trans (valid.held pid holding),
    valid.unique,valid.kept,valid.once⟩

theorem executed_once {c : Cmd T} {answer : Reply c} (valid : OnceInvariant stream key r)
    (owed : claimDuty stream key (view r pid) c) (done : Executed r pid c answer after) :
    OnceInvariant stream key after := by
  cases done with
  | @claimed asked answer free told =>
      by_cases same : asked = key
      · subst same; exact claimed_once valid free
      · exact note_neutral (elsewhere_once valid same) ⟨fun past => by simp [holds,same],rfl⟩
  | duplicate _ _ => exact note_neutral valid ⟨fun _ => rfl,rfl⟩
  | @released freed answer =>
      by_cases same : freed = key
      · subst same; exact released_once valid (owed.2 rfl)
      · exact note_neutral (elsewhere_once valid same) ⟨fun past => by simp [holds,same],rfl⟩
  | acked =>
      exact note_neutral (r := {r with pel := _}) ⟨valid.held,valid.unique,valid.kept,valid.once⟩
        ⟨fun _ => rfl,rfl⟩
  | buried =>
      exact note_neutral (r := {r with dlq := _}) ⟨valid.held,valid.unique,valid.kept,valid.once⟩
        ⟨fun _ => rfl,rfl⟩
  | @handled sent outcome =>
      by_cases same : dedupKey stream sent.id = key
      · exact returned_once valid (owed.2 same)
      · exact note_neutral valid ⟨fun _ => rfl,by cases outcome <;> simp [succeeds,same]⟩
  | unclaimed | unreleased | unacked | unburied | pending | read => exact valid

theorem env_once {s : Workers T} (valid : OnceInvariant stream (dedupKey stream envelope) s.shared)
    (allowed : ClaimAnswered stream envelope s (.env event))
    (ran : env s.shared event = some after) :
    OnceInvariant stream (dedupKey stream envelope) after := by
  cases event with
  | produce m =>
      simp only [env,Option.ite_none_right_eq_some,Option.some.injEq] at ran
      obtain ⟨_,rfl⟩ := ran
      exact ⟨valid.held,valid.unique,valid.kept,valid.once⟩
  | expire expired => cases ran; exact elsewhere_once valid allowed
  | dropped entry =>
      obtain ⟨count,_,rfl⟩ := Option.map_eq_some_iff.mp ran
      exact ⟨valid.held,valid.unique,valid.kept,valid.once⟩

end Once

section Handling
variable {T : Type} {stream key : String} {cfg : ConsumerStreamConfig}
  {unmarshal : String → Envelope T × Option String} {zero : Envelope T} {m : XMessage}
  {events : List (Event T)} {post : View T → Except String Unit → Prop}

theorem toDLQThenAck_claim (fine : ∀ v, post v (.ok ())) :
    Meets (Local (claimAnswers key)) (claimDuty stream key) post (toDLQThenAck cfg m reason errMsg)
      ⟨some m,events⟩ := by
  have acks (events : List (Event T)) :
      Meets (Local (claimAnswers key)) (claimDuty stream key) post (ack m.id) ⟨some m,events⟩ :=
    meets_call ⟨Option.some_ne_none _,trivial⟩ fun _ _ _ _ => fine _
  simp only [toDLQThenAck,toDLQ]
  split
  · exact acks _
  · refine meets_call ⟨Option.some_ne_none _,trivial⟩ fun _ _ _ _ => ?_
    refine meets_call ⟨Option.some_ne_none _,trivial⟩ fun answer _ _ _ => ?_
    cases answer with
    | error _ => exact fine _
    | ok _ => exact acks _

theorem handleFailure_claim (fine : ∀ v, post v (.ok ()))
    (holding : asked = key → Holding stream key ⟨some m,events⟩) :
    Meets (Local (claimAnswers key)) (claimDuty stream key) post (handleFailure cfg m asked err)
      ⟨some m,events⟩ := by
  have decided (deliveries : Int) (events : List (Event T)) : Meets (Local (claimAnswers key))
      (claimDuty stream key) post
      (if deliveries ≥ cfg.maxRetries then toDLQThenAck cfg m "max_retries" err else .done ())
      ⟨some m,events⟩ := by
    split
    · exact toDLQThenAck_claim fine
    · exact fine _
  refine meets_call ⟨Option.some_ne_none _,holding⟩ fun _ _ _ _ => ?_
  refine meets_call ⟨Option.some_ne_none _,trivial⟩ fun answer _ _ _ => ?_
  split <;> exact decided _ _

theorem recovered_claim (fine : ∀ v, post v (.ok ()))
    (holding : dedupKey cfg.stream sent.id = key → Holding stream key ⟨some m,events⟩) :
    Meets (Local (claimAnswers key)) (claimDuty stream key) post (recovered cfg m sent value)
      ⟨some m,events⟩ := by
  simp only [recovered]
  split
  · exact meets_call ⟨Option.some_ne_none _,holding⟩ fun _ _ _ _ => toDLQThenAck_claim fine
  · exact toDLQThenAck_claim fine

-- A goroutine that gets past the claim holds it: an unanswered or duplicate
-- claim never reaches the handler.
theorem emits_holding {answer : SetReply} (answered : claimAnswers (T := T) key (.setNX key) answer)
    (emitted : Emits (.setNX key) answer events) (present : answer ≠ .missing) :
    Holding stream key ⟨some m,events⟩ := by
  have responded : answer ≠ .err := answered rfl
  cases emitted with
  | claimed told => simp [Holding,holds,succeeds]
  | duplicate told => rcases told with told | told <;> contradiction
  | unclaimed => contradiction

theorem handleDecoded_claim (fine : ∀ v, post v (.ok ()))
    (panicked : ∀ events value, (dedupKey cfg.stream sent.id = key →
      Holding cfg.stream key ⟨some m,events⟩) → post ⟨some m,events⟩ (.error value)) :
    Meets (Local (claimAnswers key)) (claimDuty cfg.stream key) post (handleDecoded cfg m sent)
      ⟨some m,[]⟩ := by
  refine meets_call ⟨Option.some_ne_none _,trivial⟩ fun claim events answered emitted => ?_
  rw [List.append_nil]
  split
  · exact meets_call ⟨Option.some_ne_none _,trivial⟩ fun _ _ _ _ => fine _
  · rename_i present
    have holding : dedupKey cfg.stream sent.id = key → Holding cfg.stream key ⟨some m,events⟩ := by
      intro same
      rw [same] at answered emitted
      exact emits_holding answered emitted present
    refine meets_call ⟨Option.some_ne_none _,holding⟩ fun outcome _ _ handled => ?_
    cases handled
    have still (unfinished : outcome ≠ .success) : dedupKey cfg.stream sent.id = key →
        Holding cfg.stream key ⟨some m,[.returned sent outcome] ++ events⟩ := by
      intro same
      obtain ⟨holds,pending⟩ := holding same
      refine ⟨holds,fun event member => ?_⟩
      rcases List.mem_cons.mp member with rfl | old
      · cases outcome <;> simp [succeeds] at unfinished ⊢
      · exact pending event old
    cases outcome with
    | success => exact meets_call ⟨Option.some_ne_none _,trivial⟩ fun _ _ _ _ => fine _
    | panics value => exact panicked _ _ (still (by simp))
    | failure err => exact handleFailure_claim fine (still (by simp))

theorem handle_claim : Meets (Local (claimAnswers key)) (claimDuty cfg.stream key) (fun _ _ => True)
    (handle cfg unmarshal zero m) ⟨some m,[]⟩ := by
  apply meets_settle
  split
  · exact toDLQThenAck_claim fun _ => trivial
  · exact handleDecoded_claim (fun _ => trivial) fun _ _ holding => recovered_claim
      (fun _ => trivial) holding

end Handling

section Runs
variable {T : Type} {cfg : ConsumerStreamConfig} {unmarshal : String → Envelope T × Option String}
  {zero : Envelope T} {envelope : String}

theorem exec_answered {s : Workers T} {c : Cmd T} {next : Reply c → Handling T} {answer : Reply c}
    {after : Redis T} (here : s.threads pid = some (.call c next))
    (allowed : ClaimAnswered cfg.stream envelope s (.step pid choice))
    (ran : exec s.shared pid c choice = some (after,some answer)) :
    claimAnswers (dedupKey cfg.stream envelope) c answer := by
  cases c with
  | setNX asked =>
      intro same
      have runs : choice = .runs := allowed (by simp [claiming,here,same])
      subst runs
      cases ran
      split <;> simp
  | _ => trivial

theorem once_sound : Sound (machine cfg unmarshal zero) (ClaimAnswered cfg.stream envelope)
    (fun r => Unborn r ∧ OnceInvariant cfg.stream (dedupKey cfg.stream envelope) r) view
    (Local (claimAnswers (dedupKey cfg.stream envelope)))
      (claimDuty cfg.stream (dedupKey cfg.stream envelope))
    (fun _ _ => True) where
  accepts valid accepted := by
    refine ⟨⟨accept_unborn valid.1 accepted,?_⟩,?_,
      fun other different => accept_frame accepted different⟩
    · obtain ⟨_,_,_,rfl⟩ := accept_parts accepted
      exact ⟨valid.2.held,valid.2.unique,valid.2.kept,valid.2.once⟩
    · rw [accept_view accepted,valid.1 _ (accept_parts accepted).1]
      exact handle_claim
  executes valid here owed allowed ran := by
    obtain ⟨answer,rfl,done⟩ := exec_executed ran
    exact ⟨⟨executed_unborn valid.1 owed.1 done,executed_once valid.2 owed done⟩,
      executed_local done (exec_answered here allowed ran),fun other different =>
        executed_frame done different⟩
  abandons pid valid := ⟨valid,fun _ _ => rfl⟩
  environs valid allowed ran := by
    obtain ⟨journal,_,delivered⟩ := env_frame ran
    exact ⟨⟨env_unborn valid.1 ran,env_once valid.2 allowed ran⟩,
      fun pid => by simp [view,journal,delivered]⟩

def Running (s : Workers T) (envelope : String) (pid : Pid) : Prop :=
  ∃ sent next, s.threads pid = some (.call (.handler sent) next) ∧ sent.id = envelope

theorem handled_once {s : Workers T}
    (path : Reached (machine cfg unmarshal zero) (ClaimAnswered cfg.stream envelope)
      (State.start Redis.empty) s) :
    successes envelope s.shared.journal ≤ 1 ∧ ∀ p q, Running s envelope p → Running s envelope q →
      p = q := by
  obtain ⟨⟨_,valid⟩,meets⟩ :=
    reached_kept once_sound ⟨fun _ _ => rfl,empty_once⟩ (fun _ => rfl) path
  constructor
  · exact Nat.le_trans (List.countP_mono_left fun _ _ done => nil_succeeds done) valid.once
  · rintro p q ⟨sent,next,first,rfl⟩ ⟨other,rest,second,same⟩
    have one := (meets_duty (meets p _ first)).2 rfl
    have two := (meets_duty (meets q _ second)).2 (by rw [same])
    exact valid.unique p q one.1 two.1

end Runs

namespace Controls

def mailStream : ConsumerStreamConfig := ⟨"mail",true,3⟩
def parse (raw : String) : Envelope String × Option String := (⟨raw,0,raw⟩,none)
def order : XMessage := ⟨"1-0",[("payload","welcome")]⟩

-- The first try panics and its entry stays pending because the DLQ write fails;
-- the second succeeds while a third delivery already waits for the claim.
def retried : List (Act Delivery Choice Surroundings) :=
  [.env (.produce order),.spawn 0 (.first order),.step 0 .runs,
    .step 0 (.handler (.panics "nil map")),.step 0 .runs,.step 0 (.clock "2024-01-01T00:00:00Z"),
    .step 0 .fails,.spawn 1 (.again order),.spawn 2 (.again order),.step 1 .runs,
    .step 1 (.handler .success),.step 2 .runs,.step 1 .fails,.step 2 .runs]

theorem handled_once_retried :
    ∃ s, Reached (machine mailStream parse ⟨"",0,""⟩) (ClaimAnswered mailStream.stream "welcome")
      (State.start Redis.empty) s ∧
      successes "welcome" s.shared.journal = 1 ∧
      ∀ p q, Running s "welcome" p → Running s "welcome" q → p = q := by
  obtain ⟨s,path,done⟩ :=
    run_finds (machine mailStream parse ⟨"",0,""⟩) (ClaimAnswered mailStream.stream "welcome")
    (State.start Redis.empty) retried (fun s => successes "welcome" s.shared.journal = 1)
    (by decide +kernel)
  exact ⟨s,path,done,(handled_once path).2⟩

end Controls
end RestApi.StreamConsumer
