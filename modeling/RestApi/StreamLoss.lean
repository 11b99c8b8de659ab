import RestApi.StreamOnce

namespace RestApi.StreamConsumer
open Program Pool

section Loss
variable {T : Type} (stream : String) (decode : XMessage → Envelope T × Option String)

def Processed (r : Redis T) (sent : Envelope T) : Prop :=
  ∃ entry ∈ r.journal, entry.2 = .returned sent .success

def Buried (r : Redis T) (m : XMessage) : Prop :=
  ∃ reason errMsg failedAt, deadLetter m reason errMsg failedAt ∈ r.dlq

-- Where an acknowledged entry must have gone.
def Settled (r : Redis T) (m : XMessage) : Prop :=
  (∃ sent, decode m = (sent,none) ∧ Processed r sent) ∨ Buried r m

-- A claim is open from its SET NX until the handler has returned nil or the key is
-- released; a crash or a failed DEL in between leaves it open.
def Open (key : String) (events : List (Event T)) : Bool :=
  holds key events && !events.any (succeeds stream key)

-- Two entries with one envelope ID carry one envelope.
def Identified (entries : List XMessage) : Prop :=
  ∀ a ∈ entries, ∀ b ∈ entries, (decode a).2 = none → (decode b).2 = none →
    (decode a).1.id = (decode b).1.id → (decode a).1 = (decode b).1

-- No SET NX comes upon the key of a claim that is still open.
def Undisturbed (s : Workers T) : Act Delivery Choice Surroundings → Prop
  | .step pid choice => ∀ key ∈ claiming s pid, choice ≠ .fails → s.shared.claims key = true →
      ∀ entry ∈ s.shared.journal, Open stream key (own s.shared.journal entry.1) = false
  | .env (.produce m) => Identified decode (m :: s.shared.entries)
  | _ => True

instance [DecidableEq T] (r : Redis T) (sent : Envelope T) : Decidable (Processed r sent) :=
  inferInstanceAs (Decidable (∃ entry ∈ r.journal, entry.2 = .returned sent .success))

instance [DecidableEq T] (entries : List XMessage) : Decidable (Identified decode entries) :=
  inferInstanceAs (Decidable (∀ a ∈ entries, ∀ b ∈ entries, (decode a).2 = none →
    (decode b).2 = none → (decode a).1.id = (decode b).1.id → (decode a).1 = (decode b).1))

instance [DecidableEq T] (s : Workers T) (act : Act Delivery Choice Surroundings) :
    Decidable (Undisturbed stream decode s act) := match act with
  | .step pid choice =>
      inferInstanceAs (Decidable (∀ key ∈ claiming s pid, choice ≠ .fails →
        s.shared.claims key = true →
      ∀ entry ∈ s.shared.journal, Open stream key (own s.shared.journal entry.1) = false))
  | .env (.produce m) => inferInstanceAs (Decidable (Identified decode (m :: s.shared.entries)))
  | .env (.expire _) => .isTrue trivial
  | .env (.dropped _) => .isTrue trivial
  | .spawn _ _ => .isTrue trivial
  | .kill _ => .isTrue trivial

-- The same as `Settled`, as far as a goroutine's own history shows it.
inductive Earned (m : XMessage) (events : List (Event T)) : Prop where
  | processed (decoded : decode m = (sent,none)) (returned : .returned sent .success ∈ events)
  | buried (written : .buried (deadLetter m reason errMsg failedAt) ∈ events)
  | duplicate (decoded : (decode m).2 = none) (seen : .duplicate key ∈ events)

def ackDuty (v : View T) : Cmd T → Prop
  | .xack entry => ∃ m, v.message = some m ∧ m.id = entry ∧ Earned decode m v.events
  | .setNX key =>
      ∃ m, v.message = some m ∧ (decode m).2 = none ∧ key = dedupKey stream (decode m).1.id
  | .handler sent => ∃ m, v.message = some m ∧ decode m = (sent,none)
  | _ => v.message ≠ none

-- A key that is set belongs to an open claim or to finished work.
def Owned (key : String) (r : Redis T) : Prop := r.claims key = true →
  (∃ pid, Open stream key (own r.journal pid) = true) ∨ ∃ pid event, (pid,event) ∈ r.journal ∧
    succeeds stream key event = true

structure LossInvariant (r : Redis T) : Prop where
  unborn : Unborn r
  distinct : ∀ a ∈ r.entries, ∀ b ∈ r.entries, a.id = b.id → a = b
  stored : ∀ pid m, r.delivered pid = some m → m ∈ r.entries
  identified : Identified decode r.entries
  owned : ∀ key, Owned stream key r
  returned : ∀ pid sent outcome, (pid,.returned sent outcome) ∈ r.journal →
    ∃ m ∈ r.entries, decode m = (sent,none)
  buried : ∀ pid fields, (pid,.buried fields) ∈ r.journal → fields ∈ r.dlq
  duplicate : ∀ pid key m, (pid,.duplicate key) ∈ r.journal → r.delivered pid = some m →
    Processed r (decode m).1
  acked : ∀ pid entry, (pid,.acked entry) ∈ r.journal →
    ∃ m, r.delivered pid = some m ∧ m.id = entry ∧ Settled decode r m

variable {stream decode}

theorem dedupKey_inj (same : dedupKey stream a = dedupKey stream b) : a = b := by
  unfold dedupKey at same
  simpa using same

-- The only key a SET NX finds set is one whose work is done.
theorem found_processed {r : Redis T} {m : XMessage} (valid : LossInvariant stream decode r)
    (delivered : r.delivered pid = some m) (decoded : (decode m).2 = none)
    (held : r.claims (dedupKey stream (decode m).1.id) = true)
    (closed : ∀ entry ∈ r.journal, Open stream (dedupKey stream (decode m).1.id)
      (own r.journal entry.1) = false) : Processed r (decode m).1 := by
  rcases valid.owned _ held with ⟨holder,opened⟩ | ⟨worker,event,member,done⟩
  · obtain ⟨event,member⟩ : ∃ event, (holder,event) ∈ r.journal := by
      cases events : own r.journal holder with
      | nil =>
          rw [events] at opened
          cases opened
      | cons event rest => exact ⟨event,mem_own.mp (events ▸ List.mem_cons_self)⟩
    rw [closed _ member] at opened
    cases opened
  · unfold succeeds at done
    split at done
    · rename_i sent
      obtain ⟨other,there,same⟩ := valid.returned worker sent .success member
      have sameID : (decode other).1.id = (decode m).1.id := by
        rw [same]
        exact dedupKey_inj (of_decide_eq_true done)
      have one := valid.identified other there m (valid.stored pid m delivered)
        (by rw [same]) decoded sameID
      rw [same] at one
      exact ⟨_,member,congrArg (Event.returned · .success) one⟩
    · cases done

theorem note_owned {r : Redis T} (owned : Owned stream key r) (neutral : Neutral stream key event) :
    Owned stream key (r.note pid event) := by
  intro held
  rcases owned held with ⟨holder,opened⟩ | ⟨worker,done,member,finished⟩
  · refine .inl ⟨holder,?_⟩
    by_cases self : holder = pid
    · subst self
      rw [own_note_self]
      simpa [Open,neutral.1,neutral.2] using opened
    · rwa [own_note_other _ _ self]
  · exact .inr ⟨worker,done,List.mem_cons_of_mem _ member,finished⟩

theorem elsewhere_owned {r : Redis T} (owned : Owned stream key r) (different : other ≠ key) :
    Owned stream key {r with claims := Function.update r.claims other held} := by
  intro there
  exact owned ((Function.update_of_ne (Ne.symm different) _ _).symm.trans there)

theorem free_owned {r : Redis T} (free : r.claims key = false) : Owned stream key r := by
  intro held
  rw [free] at held
  cases held

theorem claimed_owned (r : Redis T) (pid : Pid) :
    Owned stream key ({r with claims := Function.update r.claims key true}.note pid
      (.claimed key)) := by
  intro _
  by_cases finished : (own r.journal pid).any (succeeds stream key) = true
  · obtain ⟨event,member,done⟩ := List.any_eq_true.mp finished
    exact .inr ⟨pid,event,List.mem_cons_of_mem _ (mem_own.mp member),done⟩
  · refine .inl ⟨pid,?_⟩
    rw [own_note_self]
    simpa [Open,holds,succeeds] using finished

theorem returned_owned {r : Redis T} (owned : Owned stream key r) :
    Owned stream key (r.note pid (.returned sent outcome)) := by
  by_cases done : succeeds stream key (.returned sent outcome) = true
  · exact fun _ => .inr ⟨pid,_,List.mem_cons_self,done⟩
  · exact note_owned owned ⟨fun _ => rfl,by simpa using done⟩

theorem executed_owned {r after : Redis T} {c : Cmd T} {answer : Reply c}
    (owned : Owned stream key r)
    (done : Executed r pid c answer after) : Owned stream key after := by
  cases done with
  | @claimed asked answer free told =>
      by_cases same : asked = key
      · subst same
        exact claimed_owned r pid
      · exact note_owned (elsewhere_owned owned same) ⟨fun past => by simp [holds,same],rfl⟩
  | @released freed answer =>
      by_cases same : freed = key
      · subst same
        exact free_owned (by simp [Redis.note])
      · exact note_owned (elsewhere_owned owned same) ⟨fun past => by simp [holds,same],rfl⟩
  | duplicate _ _ => exact note_owned owned ⟨fun _ => rfl,rfl⟩
  | acked => exact note_owned (r := {r with pel := _}) owned ⟨fun _ => rfl,rfl⟩
  | buried => exact note_owned (r := {r with dlq := _}) owned ⟨fun _ => rfl,rfl⟩
  | handled => exact returned_owned owned
  | unclaimed | unreleased | unacked | unburied | pending | read => exact owned

theorem processed_mono {r after : Redis T} (journal : r.journal ⊆ after.journal)
    (done : Processed r sent) : Processed after sent := by
  obtain ⟨entry,member,same⟩ := done
  exact ⟨entry,journal member,same⟩

theorem settled_mono {r after : Redis T} {m : XMessage} (journal : r.journal ⊆ after.journal)
    (dlq : r.dlq ⊆ after.dlq) (done : Settled decode r m) : Settled decode after m := by
  rcases done with ⟨sent,decoded,processed⟩ | ⟨reason,errMsg,failedAt,member⟩
  · exact .inl ⟨sent,decoded,processed_mono journal processed⟩
  · exact .inr ⟨reason,errMsg,failedAt,dlq member⟩

-- The history of a goroutine that acknowledges proves its entry settled.
theorem earned_settled {r : Redis T} {m : XMessage} (valid : LossInvariant stream decode r)
    (delivered : r.delivered pid = some m)
    (earned : Earned decode m (own r.journal pid)) : Settled decode r m := by
  cases earned with
  | processed decoded returned => exact .inl ⟨_,decoded,_,mem_own.mp returned,rfl⟩
  | buried written => exact .inr ⟨_,_,_,valid.buried _ _ (mem_own.mp written)⟩
  | duplicate decoded seen =>
      refine .inl ⟨(decode m).1,?_,valid.duplicate _ _ _ (mem_own.mp seen) delivered⟩
      rw [← decoded]

end Loss

section Handling
variable {T : Type} {cfg : ConsumerStreamConfig} {unmarshal : String → Envelope T × Option String}
  {zero : Envelope T} {answers : (c : Cmd T) → Reply c → Prop}
  {decode : XMessage → Envelope T × Option String} {m : XMessage} {events : List (Event T)}
  {post : View T → Except String Unit → Prop}

theorem ack_meets (fine : ∀ v, post v (.ok ())) (earned : Earned decode m events) :
    Meets (Local answers) (ackDuty stream decode) post (ack m.id) ⟨some m,events⟩ :=
  meets_call ⟨m,rfl,rfl,earned⟩ fun _ _ _ _ => fine _

-- With the DLQ on, an ack follows only a write that was confirmed.
theorem toDLQThenAck_meets (fine : ∀ v, post v (.ok ())) (useDLQ : cfg.useDLQ = true) :
    Meets (Local answers) (ackDuty stream decode) post (toDLQThenAck cfg m reason errMsg)
      ⟨some m,events⟩ := by
  simp only [toDLQThenAck,toDLQ,useDLQ,Bool.not_true,Bool.false_eq_true,if_false]
  refine meets_call (Option.some_ne_none _) fun failedAt _ _ _ => meets_call (Option.some_ne_none _)
    fun answer _ _ emitted => ?_
  cases emitted with
  | buried =>
      cases answer with
      | error _ => exact fine _
      | ok _ => exact ack_meets fine (.buried (List.mem_append_left _ List.mem_cons_self))
  | unburied => exact fine _

theorem handleFailure_meets (fine : ∀ v, post v (.ok ())) (useDLQ : cfg.useDLQ = true) :
    Meets (Local answers) (ackDuty stream decode) post (handleFailure cfg m key err)
      ⟨some m,events⟩ := by
  have decided (deliveries : Int) (events : List (Event T)) :
      Meets (Local answers) (ackDuty stream decode) post
      (if deliveries ≥ cfg.maxRetries then toDLQThenAck cfg m "max_retries" err else .done ())
      ⟨some m,events⟩ := by
    split
    · exact toDLQThenAck_meets fine useDLQ
    · exact fine _
  refine meets_call (Option.some_ne_none _) fun _ _ _ _ => meets_call (Option.some_ne_none _)
    fun answer _ _ _ => ?_
  split <;> exact decided _ _

theorem recovered_meets (fine : ∀ v, post v (.ok ())) (useDLQ : cfg.useDLQ = true) :
    Meets (Local answers) (ackDuty stream decode) post (recovered cfg m sent value)
      ⟨some m,events⟩ := by
  simp only [recovered]
  split
  · exact meets_call (Option.some_ne_none _) fun _ _ _ _ => toDLQThenAck_meets fine useDLQ
  · exact toDLQThenAck_meets fine useDLQ

theorem handleDecoded_meets (fine : ∀ v, post v (.ok ()))
    (panicked : ∀ events value, post ⟨some m,events⟩ (.error value)) (useDLQ : cfg.useDLQ = true)
    (decoded : decode m = (sent,none)) :
    Meets (Local answers) (ackDuty cfg.stream decode) post (handleDecoded cfg m sent)
      ⟨some m,events⟩ := by
  refine meets_call ⟨m,rfl,by rw [decoded],by rw [decoded]⟩ fun claim _ _ claimed => ?_
  split
  · rename_i missing
    cases claimed with
    | claimed told => rcases told with told | told <;> simp [told] at missing
    | duplicate _ =>
        exact ack_meets fine (.duplicate (by rw [decoded])
          (List.mem_append_left _ List.mem_cons_self))
    | unclaimed => cases missing
  · refine meets_call ⟨m,rfl,decoded⟩ fun outcome _ _ handled => ?_
    cases handled
    cases outcome with
    | success =>
        exact ack_meets fine (.processed decoded (List.mem_append_left _ List.mem_cons_self))
    | panics value => exact panicked _ _
    | failure err => exact handleFailure_meets fine useDLQ

theorem handle_acks_settled (useDLQ : cfg.useDLQ = true) :
    Meets (Local answers) (ackDuty cfg.stream (decodeMessage unmarshal zero)) (fun _ _ => True)
      (handle cfg unmarshal zero m) ⟨some m,events⟩ := by
  apply meets_settle
  split
  · exact toDLQThenAck_meets (fun _ => trivial) useDLQ
  · rename_i decoded
    refine handleDecoded_meets (fun _ => trivial) (fun _ _ => ?_) useDLQ ?_
    · exact recovered_meets (fun _ => trivial) useDLQ
    · rw [← decoded]

theorem ackDuty_delivered {v : View T} {c : Cmd T}
    (owed : ackDuty stream decode v c) : v.message ≠ none := by
  cases c with
  | xack entry =>
      obtain ⟨m,message,_⟩ := owed
      simp [message]
  | setNX key =>
      obtain ⟨m,message,_⟩ := owed
      simp [message]
  | handler sent =>
      obtain ⟨m,message,_⟩ := owed
      simp [message]
  | _ => exact owed

end Handling

section Runs
variable {T : Type} {stream : String} {decode : XMessage → Envelope T × Option String}

theorem executed_returned {r after : Redis T} {c : Cmd T} {answer : Reply c}
    (done : Executed r pid c answer after) (member : (who,.returned sent outcome) ∈ after.journal) :
    (who = pid ∧ c = .handler sent) ∨ (who,.returned sent outcome) ∈ r.journal := by
  cases done with
  | handled =>
      rcases note_mem.mp member with ⟨rfl,same⟩ | old
      · cases same
        exact .inl ⟨rfl,rfl⟩
      · exact .inr old
  | _ => exact .inr (by simpa using member)

theorem executed_loss {s : Workers T} {after : Redis T} {c : Cmd T} {next : Reply c → Handling T}
    {answer : Reply c} (valid : LossInvariant stream decode s.shared)
    (here : s.threads pid = some (.call c next))
    (owed : ackDuty stream decode (view s.shared pid) c)
    (allowed : Undisturbed stream decode s (.step pid choice))
    (ran : exec s.shared pid c choice = some (after,some answer))
    (done : Executed s.shared pid c answer after) : LossInvariant stream decode after := by
  obtain ⟨events,_,journal⟩ := executed_journal done
  obtain ⟨delivered,entries,dlq⟩ := executed_kept done
  have grown : s.shared.journal ⊆ after.journal := by
    rw [journal]; exact List.subset_append_right _ _
  refine ⟨executed_unborn valid.unborn (ackDuty_delivered owed) done,entries ▸ valid.distinct,?_,
    entries ▸ valid.identified,fun key => executed_owned (valid.owned key) done,?_,?_,?_,?_⟩
  · rw [delivered,entries]
    exact valid.stored
  · intro who sent outcome member
    rw [entries]
    rcases executed_returned done member with ⟨rfl,rfl⟩ | old
    · obtain ⟨m,message,decoded⟩ := owed
      exact ⟨m,valid.stored who m message,decoded⟩
    · exact valid.returned who sent outcome old
  · intro who fields member
    rcases executed_buried done member with new | old
    · exact new
    · exact dlq (valid.buried who fields old)
  · intro who key m member message
    rw [delivered] at message
    apply processed_mono grown
    rcases executed_duplicate done member with ⟨rfl,rfl,held⟩ | old
    · by_cases failed : choice = .fails
      · subst failed
        cases ran
        exact valid.duplicate who key m member message
      · obtain ⟨own,given,decoded,rfl⟩ := owed
        cases message.symm.trans given
        exact found_processed valid message decoded held
          (allowed _ (by simp [claiming,here]) failed held)
    · exact valid.duplicate who key m old message
  · intro who entry member
    rcases executed_acked done member with ⟨rfl,rfl⟩ | old
    · obtain ⟨m,message,same,earned⟩ := owed
      exact ⟨m,delivered ▸ message,same,
        settled_mono grown dlq (earned_settled valid message earned)⟩
    · obtain ⟨m,message,same,settled⟩ := valid.acked who entry old
      exact ⟨m,delivered ▸ message,same,settled_mono grown dlq settled⟩

theorem accept_loss {r after : Redis T} {d : Delivery} (valid : LossInvariant stream decode r)
    (accepted : accept r pid d = some after) : LossInvariant stream decode after := by
  have unborn := accept_unborn valid.unborn accepted
  have stored := accept_stored valid.stored accepted
  obtain ⟨fresh,_,count,rfl⟩ := accept_parts accepted
  have silent {event : Event T} : (pid,event) ∉ r.journal := by
    intro member
    have seen := mem_own.mpr member
    rw [valid.unborn pid fresh] at seen
    cases seen
  have others {who : Pid} {event : Event T} (member : (who,event) ∈ r.journal) :
      Function.update r.delivered pid (some d.message) who = r.delivered who :=
    Function.update_of_ne (fun same => silent (same ▸ member)) _ _
  refine ⟨unborn,valid.distinct,stored,valid.identified,valid.owned,valid.returned,valid.buried,
    ?_,?_⟩
  · intro who key m member message
    exact valid.duplicate who key m member ((others member).symm.trans message)
  · intro who entry member
    obtain ⟨m,message,same,settled⟩ := valid.acked who entry member
    exact ⟨m,(others member).trans message,same,settled⟩

theorem env_owned {r after : Redis T} (owned : Owned stream key r)
    (ran : env r event = some after) : Owned stream key after := by
  cases event with
  | produce m =>
      simp only [env,Option.ite_none_right_eq_some,Option.some.injEq] at ran
      obtain ⟨_,rfl⟩ := ran
      exact owned
  | expire expired =>
      cases ran
      by_cases same : expired = key
      · subst same
        exact free_owned (by simp)
      · exact elsewhere_owned owned same
  | dropped entry =>
      obtain ⟨count,_,rfl⟩ := Option.map_eq_some_iff.mp ran
      exact owned

theorem env_identified {s : Workers T} {after : Redis T}
    (identified : Identified decode s.shared.entries)
    (allowed : Undisturbed stream decode s (.env event)) (ran : env s.shared event = some after) :
    Identified decode after.entries := by
  cases event with
  | produce m =>
      simp only [env,Option.ite_none_right_eq_some,Option.some.injEq] at ran
      obtain ⟨_,rfl⟩ := ran
      exact allowed
  | expire key =>
      cases ran
      exact identified
  | dropped entry =>
      obtain ⟨count,_,rfl⟩ := Option.map_eq_some_iff.mp ran
      exact identified

theorem env_loss {s : Workers T} {after : Redis T} (valid : LossInvariant stream decode s.shared)
    (allowed : Undisturbed stream decode s (.env event)) (ran : env s.shared event = some after) :
    LossInvariant stream decode after := by
  obtain ⟨journal,dlq,delivered⟩ := env_frame ran
  obtain ⟨distinct,kept⟩ := env_entries valid.distinct ran
  have settled {m : XMessage} : Settled decode s.shared m → Settled decode after m :=
    settled_mono (journal ▸ List.Subset.refl _) (dlq ▸ List.Subset.refl _)
  have processed {sent : Envelope T} : Processed s.shared sent → Processed after sent :=
    processed_mono (journal ▸ List.Subset.refl _)
  refine ⟨env_unborn valid.unborn ran,distinct,?_,env_identified valid.identified allowed ran,
    fun key => env_owned (valid.owned key) ran,?_,?_,?_,?_⟩
  · intro pid m message
    exact kept (valid.stored pid m (delivered ▸ message))
  · intro pid sent outcome member
    obtain ⟨m,there,decoded⟩ := valid.returned pid sent outcome (journal ▸ member)
    exact ⟨m,kept there,decoded⟩
  · rw [journal,dlq]
    exact valid.buried
  · intro pid key m member message
    exact processed (valid.duplicate pid key m (journal ▸ member) (delivered ▸ message))
  · intro pid entry member
    obtain ⟨m,message,same,done⟩ := valid.acked pid entry (journal ▸ member)
    exact ⟨m,delivered ▸ message,same,settled done⟩

variable {cfg : ConsumerStreamConfig} {unmarshal : String → Envelope T × Option String}
  {zero : Envelope T}

theorem loss_sound (useDLQ : cfg.useDLQ = true) :
    Sound (machine cfg unmarshal zero) (Undisturbed cfg.stream (decodeMessage unmarshal zero))
      (LossInvariant cfg.stream (decodeMessage unmarshal zero)) view (Local fun _ _ => True)
      (ackDuty cfg.stream (decodeMessage unmarshal zero)) (fun _ _ => True) where
  accepts valid accepted := by
    refine ⟨accept_loss valid accepted,?_,fun other different => accept_frame accepted different⟩
    rw [accept_view accepted]
    exact handle_acks_settled useDLQ
  executes valid here owed allowed ran := by
    obtain ⟨answer,rfl,done⟩ := exec_executed ran
    exact ⟨executed_loss valid here owed allowed ran done,executed_local done trivial,
      fun other different => executed_frame done different⟩
  abandons pid valid := ⟨valid,fun _ _ => rfl⟩
  environs valid allowed ran := by
    refine ⟨env_loss valid allowed ran,fun pid => ?_⟩
    obtain ⟨journal,_,delivered⟩ := env_frame ran
    simp [view,journal,delivered]

theorem empty_loss : LossInvariant stream decode Redis.empty := by
  constructor <;> simp [Redis.empty,Unborn,own,Identified,Owned]

theorem acknowledged_settled {s : Workers T} {m : XMessage} (useDLQ : cfg.useDLQ = true)
    (path : Reached (machine cfg unmarshal zero)
      (Undisturbed cfg.stream (decodeMessage unmarshal zero)) (State.start Redis.empty) s)
    (stored : m ∈ s.shared.entries) (acked : (pid,.acked m.id) ∈ s.shared.journal) :
    Settled (decodeMessage unmarshal zero) s.shared m := by
  have valid := (reached_kept (loss_sound useDLQ) empty_loss (fun _ => rfl) path).1
  obtain ⟨delivered,message,same,settled⟩ := valid.acked pid m.id acked
  exact valid.distinct delivered (valid.stored pid delivered message) m stored same ▸ settled

end Runs

namespace Controls

-- First try sends but its XACK is lost; the redelivery finds the key and acks.
def resent : List (Act Delivery Choice Surroundings) :=
  [.env (.produce order),.spawn 0 (.first order),.step 0 .runs,.step 0 (.handler .success),
    .step 0 .fails,.spawn 1 (.again order),.step 1 .runs,.step 1 .runs]

theorem acknowledged_settled_resent :
    ∃ s, Reached (machine mailStream parse ⟨"",0,""⟩)
      (Undisturbed mailStream.stream (decodeMessage parse ⟨"",0,""⟩)) (State.start Redis.empty) s ∧
      order ∈ s.shared.entries ∧ (1,.acked order.id) ∈ s.shared.journal ∧
      Settled (decodeMessage parse ⟨"",0,""⟩) s.shared order := by
  obtain ⟨s,path,stored,acked⟩ := run_finds (machine mailStream parse ⟨"",0,""⟩)
    (Undisturbed mailStream.stream (decodeMessage parse ⟨"",0,""⟩)) (State.start Redis.empty) resent
    (fun s => order ∈ s.shared.entries ∧ (1,.acked order.id) ∈ s.shared.journal) (by decide +kernel)
  exact ⟨s,path,stored,acked,acknowledged_settled rfl path stored acked⟩

-- The redelivery runs while the first handler call is still at work. It takes
-- the claim for finished work and acks; then the first call fails.
def overtaken : List (Act Delivery Choice Surroundings) :=
  [.env (.produce order),.spawn 0 (.first order),.step 0 .runs,
    .spawn 1 (.again order),.step 1 .runs,.step 1 .runs,
    .step 0 (.handler (.failure "smtp down")),.step 0 .runs,.step 0 .runs]

theorem acknowledged_lost :
    ∃ s, Reached (machine mailStream parse ⟨"",0,""⟩) (fun _ _ => True)
      (State.start Redis.empty) s ∧
      order ∈ s.shared.entries ∧ (1,.acked order.id) ∈ s.shared.journal ∧
        s.shared.pel order.id = none ∧
      ¬Settled (decodeMessage parse ⟨"",0,""⟩) s.shared order := by
  obtain ⟨s,path,stored,acked,gone,empty,unprocessed⟩ :=
    run_finds (machine mailStream parse ⟨"",0,""⟩) (fun _ _ => True)
    (State.start Redis.empty) overtaken (fun s => order ∈ s.shared.entries ∧
    (1,.acked order.id) ∈ s.shared.journal ∧ s.shared.pel order.id = none ∧ s.shared.dlq = [] ∧
    ¬Processed s.shared (decodeMessage parse ⟨"",0,""⟩ order).1) (by decide +kernel)
  refine ⟨s,path,stored,acked,gone,?_⟩
  rintro (⟨sent,decoded,processed⟩ | ⟨_,_,_,member⟩)
  · rw [decoded] at unprocessed
    exact unprocessed processed
  · rw [empty] at member
    cases member

end Controls
end RestApi.StreamConsumer
