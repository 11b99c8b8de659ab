import RestApi.Envelopes
import RestApi.Protocols
import RestApi.StreamView

namespace RestApi.StreamConsumer
open Program Pool Protocols Envelopes

section Code
variable {T : Type} {cfg : ConsumerStreamConfig} {unmarshal : String → Envelope T × Option String}
  {zero : Envelope T} {m : XMessage}

-- A delivery hands over what its entry decodes to, and buries the entry with a reason.
def issues (decoded : Envelope T × Option String) (m : XMessage) : Cmd T → Prop
  | .handler env => decoded = (env,none)
  | .xadd fields =>
      ∃ reason err time, fields = deadLetter m reason err time ∧
        (reason = "decode_error" → decoded.2 ≠ none)
  | _ => True

def delivering (unmarshal : String → Envelope T × Option String) (zero : Envelope T) :
    Protocol (Cmd T) Reply (Option XMessage) where
  allows phase c := ∃ m, phase = some m ∧ issues (decodeMessage unmarshal zero m) m c
  after phase _ _ := phase

abbrev Delivers (unmarshal : String → Envelope T × Option String) (zero : Envelope T) (m : XMessage)
    (program : Handling T) : Prop :=
  Follows (delivering unmarshal zero) (fun phase _ => phase = some m) program (some m)

theorem delivers_call {c : Cmd T} {next : Reply c → Handling T}
    (allowed : issues (decodeMessage unmarshal zero m) m c)
    (continues : ∀ reply, Delivers unmarshal zero m (next reply)) :
    Delivers unmarshal zero m (.call c next) :=
  follows_call ⟨m,rfl,allowed⟩ continues

theorem ack_delivers (entry : String) : Delivers unmarshal zero m (ack entry) :=
  delivers_call trivial fun _ => rfl

theorem toDLQThenAck_delivers {reason err : String}
    (undecoded : reason = "decode_error" → (decodeMessage unmarshal zero m).2 ≠ none) :
    Delivers unmarshal zero m (toDLQThenAck cfg m reason err) := by
  unfold toDLQThenAck toDLQ
  split
  · exact ack_delivers m.id
  · refine delivers_call trivial fun time => delivers_call ⟨reason,err,time,rfl,undecoded⟩
      fun reply => ?_
    cases reply with
    | ok _ => exact ack_delivers m.id
    | error _ => rfl

theorem handleFailure_delivers (key err : String) :
    Delivers unmarshal zero m (handleFailure cfg m key err) := by
  have retried (deliveries : Int) : Delivers unmarshal zero m
      (if deliveries ≥ cfg.maxRetries then toDLQThenAck cfg m "max_retries" err else .done ()) := by
    split
    · exact toDLQThenAck_delivers (fun same => absurd same (by decide))
    · rfl
  refine delivers_call trivial fun _ => delivers_call trivial fun reply => ?_
  rcases reply with _ | _ | retryCount
  · exact retried 1
  · exact retried 1
  · exact retried retryCount

theorem handleDecoded_delivers {env : Envelope T}
    (decoded : decodeMessage unmarshal zero m = (env,none)) :
    Delivers unmarshal zero m (handleDecoded cfg m env) := by
  refine delivers_call trivial fun claim => ?_
  split
  · exact ack_delivers m.id
  · refine delivers_call decoded fun outcome => ?_
    cases outcome with
    | success => exact ack_delivers m.id
    | panics value => rfl
    | failure err => exact handleFailure_delivers _ err

theorem recovered_delivers (env : Envelope T) (value : String) :
    Delivers unmarshal zero m (recovered cfg m env value) := by
  have route : Delivers unmarshal zero m
    (toDLQThenAck cfg m "panic" ("panic handling message: " ++ value)) :=
    toDLQThenAck_delivers (fun same => absurd same (by decide))
  unfold recovered
  split
  · exact delivers_call trivial fun _ => route
  · exact route

theorem handle_delivers (m : XMessage) :
    Delivers unmarshal zero m (handle cfg unmarshal zero m) := by
  have still {program : Handling T} (body : Delivers unmarshal zero m program) :
      Delivers unmarshal zero m (program.catching
          (recovered cfg m (decodeMessage unmarshal zero m).1)) := by
    refine meets_settle (meets_mono (fun _ _ owed => owed) (fun phase result same => ?_) body)
    subst same
    cases result with
    | ok _ => rfl
    | error value => exact recovered_delivers _ value
  unfold handle
  refine still ?_
  split
  · rename_i err failed
    exact toDLQThenAck_delivers fun _ => by simp [failed]
  · rename_i fine
    exact handleDecoded_delivers (Prod.ext rfl fine)

end Code

section Runs
variable {T : Type} {cfg : ConsumerStreamConfig} {times : TimeText} {syntaxError : String → String}
  {struct : String} {payload : Coded T} {s : Workers T} {r after : Redis T}
  {phases : Pid → Option XMessage}

-- Whatever comes into the stream has been put there by produceStream.
def published (times : TimeText) (payload : Coded T) (_ : Workers T) :
    Act Delivery Choice Surroundings → Prop
  | .env (.produce m) => ∃ sent, produceStream times payload sent = .ok m.values
  | _ => True

def Published (times : TimeText) (payload : Coded T) (r : Redis T) (sent : Envelope T)
    (m : XMessage) : Prop :=
  m ∈ r.entries ∧ produceStream times payload sent = .ok m.values

theorem decode_published (syntaxError : String → String) (struct : String) {m : XMessage}
    {sent : Envelope T} (produced : produceStream times payload sent = .ok m.values) :
    decodeMessage (unmarshal times syntaxError struct payload) (blank payload) m = (sent,none) := by
  obtain ⟨raw,same,read⟩ := unmarshal_produced syntaxError struct produced
  simp only [decodeMessage,same]
  exact read

-- The handler has been given what was produced, and a dead letter is an entry that could
-- be read.
structure Faithful (times : TimeText) (payload : Coded T) (r : Redis T)
    (phases : Pid → Option XMessage) : Prop where
  entries : ∀ m ∈ r.entries, ∃ sent, produceStream times payload sent = .ok m.values
  current : ∀ pid m, phases pid = some m → m ∈ r.entries
  handled : ∀ pid sent outcome, (pid,.returned sent outcome) ∈ r.journal →
    ∃ m, Published times payload r sent m
  buried : ∀ fields ∈ r.dlq, ∃ m sent reason err time, Published times payload r sent m ∧
    fields = deadLetter m reason err time ∧ reason ≠ "decode_error"

theorem executed_faithful {c : Cmd T} {answer : Reply c}
    (faithful : Faithful times payload r phases)
    (allowed : (delivering (unmarshal times syntaxError struct payload) (blank payload)).allows
      (phases pid) c) (done : Executed r pid c answer after) :
    Faithful times payload after phases := by
  obtain ⟨m,here,issued⟩ := allowed
  have member := faithful.current pid m here
  obtain ⟨sent,produced⟩ := faithful.entries m member
  have decoded := decode_published syntaxError struct produced
  cases done with
  | buried =>
      obtain ⟨reason,err,time,same,readable⟩ := issued
      refine ⟨faithful.entries,faithful.current,fun who env outcome noted => ?_,
        fun fields listed => ?_⟩
      · exact faithful.handled who env outcome (by simpa using noted)
      · rcases List.mem_cons.mp listed with rfl | old
        · refine ⟨m,sent,reason,err,time,⟨member,produced⟩,same,fun wrong => readable wrong ?_⟩
          rw [decoded]
        · exact faithful.buried fields old
  | handled =>
      refine ⟨faithful.entries,faithful.current,fun who env outcome noted => ?_,faithful.buried⟩
      rcases note_mem.mp noted with ⟨_,same⟩ | old
      · cases same
        cases decoded.symm.trans issued
        exact ⟨m,member,produced⟩
      · exact faithful.handled who env outcome old
  | _ =>
      exact ⟨faithful.entries,faithful.current,
        fun who env outcome noted => faithful.handled who env outcome (by simpa using noted),
      faithful.buried⟩

theorem env_faithful (faithful : Faithful times payload r phases)
    (allowed : published times payload s (.env event)) (ran : env r event = some after) :
    Faithful times payload after phases := by
  cases event with
  | produce m =>
      simp only [env,Option.ite_none_right_eq_some,Option.some.injEq] at ran
      obtain ⟨_,rfl⟩ := ran
      refine ⟨fun other listed => ?_,fun pid other here => List.mem_cons_of_mem _
        (faithful.current pid other here),?_,?_⟩
      · rcases List.mem_cons.mp listed with rfl | old
        · exact allowed
        · exact faithful.entries other old
      · intro pid sent outcome noted
        obtain ⟨entry,listed,produced⟩ := faithful.handled pid sent outcome noted
        exact ⟨entry,List.mem_cons_of_mem _ listed,produced⟩
      · intro fields buried
        obtain ⟨entry,sent,reason,err,time,⟨listed,produced⟩,rest⟩ := faithful.buried fields buried
        exact ⟨entry,sent,reason,err,time,⟨List.mem_cons_of_mem _ listed,produced⟩,rest⟩
  | expire key =>
      cases ran
      exact ⟨faithful.entries,faithful.current,faithful.handled,faithful.buried⟩
  | dropped id =>
      obtain ⟨count,_,rfl⟩ := Option.map_eq_some_iff.mp ran
      exact ⟨faithful.entries,faithful.current,faithful.handled,faithful.buried⟩

theorem workers_faithful (init : Workers T) :
    Guarded (machine cfg (unmarshal times syntaxError struct payload) (blank payload))
    (published times payload) init (delivering (unmarshal times syntaxError struct payload)
      (blank payload))
    (fun d => some d.message) none (Faithful times payload) where
  accepts := by
    intro s phases pid d after _ _ faithful accepted
    obtain ⟨_,present,count,rfl⟩ := accept_parts accepted
    refine ⟨faithful.entries,fun other m here => ?_,faithful.handled,faithful.buried⟩
    by_cases same : other = pid
    · subst same
      rw [Function.update_self] at here
      cases here
      exact present
    · rw [Function.update_of_ne same] at here
      exact faithful.current other m here
  executes := by
    intro s phases pid c next choice after reply _ faithful _ allowed _ ran
    obtain ⟨answer,rfl,done⟩ := exec_executed ran
    have same : Function.update phases pid
      ((delivering (unmarshal times syntaxError struct payload) (blank payload)).moved
      (phases pid) c (some answer)) = phases := Function.update_eq_self pid phases
    rw [same]
    exact executed_faithful faithful allowed done
  abandons := by
    intro r phases pid faithful
    refine ⟨faithful.entries,fun other m here => ?_,faithful.handled,faithful.buried⟩
    by_cases same : other = pid
    · subst same
      rw [Function.update_self] at here
      cases here
    · rw [Function.update_of_ne same] at here
      exact faithful.current other m here
  environs := by
    intro s phases event after faithful allowed ran
    exact env_faithful faithful allowed ran

-- A dead letter still has what it is a letter about.
theorem deadLetter_decodes (syntaxError : String → String) (struct : String) {m : XMessage}
    {sent : Envelope T} (produced : produceStream times payload sent = .ok m.values)
    (entry reason err time : String) :
    decodeMessage (unmarshal times syntaxError struct payload) (blank payload)
      ⟨entry,deadLetter m reason err time⟩ = (sent,none) := by
  obtain ⟨raw,same,read⟩ := unmarshal_produced syntaxError struct produced
  have kept : (deadLetter m reason err time).get "payload" = some raw := by
    rw [deadLetter,same]
    rfl
  simp only [decodeMessage,kept]
  exact read

-- What the API sends is what the worker gets: every entry of the stream decodes to
-- what was sent, so none is dropped as unreadable, dead letters or not; the handler
-- is never called with anything else, and a dead letter can be read as its message.
theorem messages_arrive
    (path : Reached (machine cfg (unmarshal times syntaxError struct payload) (blank payload))
      (published times payload) (State.start Redis.empty) s) :
    (∀ m ∈ s.shared.entries, ∃ sent, produceStream times payload sent = .ok m.values ∧
      decodeMessage (unmarshal times syntaxError struct payload) (blank payload) m = (sent,none)) ∧
    (∀ pid sent outcome, (pid,.returned sent outcome) ∈ s.shared.journal →
      ∃ m, Published times payload s.shared sent m) ∧
      ∀ fields ∈ s.shared.dlq, ∃ m sent reason err time, Published times payload s.shared sent m ∧
        fields = deadLetter m reason err time ∧ reason ≠ "decode_error" ∧
        ∀ entry, decodeMessage (unmarshal times syntaxError struct payload) (blank payload)
          ⟨entry,fields⟩ = (sent,none) := by
  have start : Faithful times payload (Redis.empty : Redis T) fun _ => none :=
    ⟨fun _ absent => absurd absent List.not_mem_nil,by rintro _ _ ⟨⟩,
      fun _ _ _ absent => absurd absent List.not_mem_nil,fun _ absent =>
      absurd absent List.not_mem_nil⟩
  have code (d : Delivery) : Follows (delivering (unmarshal times syntaxError struct payload)
    (blank payload)) (fun _ _ => True) (handle cfg (unmarshal times syntaxError struct payload)
    (blank payload) d.message) (some d.message) :=
    meets_mono (fun _ _ owed => owed) (fun _ _ _ => trivial) (handle_delivers d.message)
  obtain ⟨phases,faithful,_⟩ :=
    reached_phases (workers_faithful (State.start Redis.empty)) code start (fun _ => rfl) path
  refine ⟨fun m listed => ?_,faithful.handled,fun fields buried => ?_⟩
  · obtain ⟨sent,produced⟩ := faithful.entries m listed
    exact ⟨sent,produced,decode_published syntaxError struct produced⟩
  obtain ⟨m,sent,reason,err,time,published,rfl,readable⟩ := faithful.buried fields buried
  exact ⟨m,sent,reason,err,time,published,rfl,readable,
    fun entry => deadLetter_decodes syntaxError struct published.2 entry reason err time⟩

end Runs

namespace FormatControls

-- Instants as plain numbers, none before the year zero.
def seconds : TimeText where
  format time := if 0 ≤ time then some (formatInt time) else none
  parse := parseInt
  parseError text := text
  parse_format time text stamped := by
    split at stamped
    · cases stamped
      exact parseInt_formatInt time
    · cases stamped

def mailing : ConsumerStreamConfig := ⟨"email.password_recovery",true,3⟩
def letter : MailMessage :=
  ⟨"a@x","Ann <A>","https://app/reset?token=t1&x=1",300000000000,by decide⟩
def sent : Envelope MailMessage := ⟨"e1",1000,letter⟩
def entry : XMessage := ⟨"1-0",match produceStream seconds passwordRecoveryMessage sent with
  | .ok values => values
  | .error _ => []⟩

abbrev reading : String → Envelope MailMessage × Option String :=
  unmarshal seconds (fun raw => raw) "Envelope" passwordRecoveryMessage

def quiet : Act Delivery Choice Surroundings → Bool
  | .env (.produce _) => false
  | _ => true

def failing : List (Act Delivery Choice Surroundings) :=
  [.spawn 0 (.first entry),.step 0 .runs,.step 0 (.handler (.panics "smtp")),.step 0 .runs,
    .step 0 (.clock "now"),.step 0 .runs]

-- A handler panics over a message with characters that JSON escapes.
theorem messages_arrive_panicked : ∃ s, Reached
    (machine mailing reading (blank passwordRecoveryMessage))
      (published seconds passwordRecoveryMessage) (State.start Redis.empty) s ∧
    (0,.returned sent (.panics "smtp")) ∈ s.shared.journal ∧
      s.shared.dlq = [deadLetter entry "panic" "panic handling message: smtp" "now"] ∧
      ∀ fields ∈ s.shared.dlq, ∃ m sent reason err time,
        Published seconds passwordRecoveryMessage s.shared sent m ∧
        fields = deadLetter m reason err time ∧ reason ≠ "decode_error" ∧
        ∀ entry, decodeMessage reading (blank passwordRecoveryMessage) ⟨entry,fields⟩ = (sent,
          none) := by
  have produced : Reached (machine mailing reading (blank passwordRecoveryMessage))
    (published seconds passwordRecoveryMessage) (State.start Redis.empty)
    ⟨{Redis.empty with entries := [entry]},fun _ => none⟩ :=
    .step .refl (show published seconds passwordRecoveryMessage _ (.env (.produce entry)) from
    ⟨sent,rfl⟩) rfl
  obtain ⟨s,path,handled,buried⟩ :=
    run_finds (machine mailing reading (blank passwordRecoveryMessage))
    (fun _ act => quiet act = true) ⟨{Redis.empty with entries := [entry]},fun _ => none⟩ failing
    (fun s => (0,.returned sent (.panics "smtp")) ∈ s.shared.journal ∧
    s.shared.dlq = [deadLetter entry "panic" "panic handling message: smtp" "now"])
    (by decide +kernel)
  have whole := produced.trans (path.mono fun s act allowed => by
    cases act with
    | env event =>
        cases event with
        | produce m => cases allowed
        | _ => trivial
    | _ => trivial)
  exact ⟨s,whole,handled,buried,(messages_arrive whole).2.2⟩

end FormatControls
end RestApi.StreamConsumer
