import Mathlib.Data.List.Basic
import RestApi.StreamCourse
import RestApi.StreamOnce

namespace RestApi.StreamConsumer
open Program Pool

section Records
variable {T : Type}

-- One command that Redis answers.
inductive Served (r : Redis T) (pid : Pid) : (c : Cmd T) → Reply c → Redis T → Prop where
  | claimed (free : r.claims key = false) :
      Served r pid (.setNX key) .ok ({r with claims := Function.update r.claims key true}.note pid
        (.claimed key))
  | duplicate (held : r.claims key = true) :
      Served r pid (.setNX key) .missing (r.note pid (.duplicate key))
  | released : Served r pid (.del key) (.ok ())
      ({r with claims := Function.update r.claims key false}.note pid (.released key))
  | acked : Served r pid (.xack entry) (.ok ())
      ({r with pel := Function.update r.pel entry none}.note pid (.acked entry))
  | buried : Served r pid (.xadd fields) (.ok ())
      ({r with dlq := fields :: r.dlq}.note pid (.buried fields))
  | pending : Served r pid (.xpending entry) (.ok (r.pel entry)) r
  | handled : Served r pid (.handler sent) outcome (r.note pid (.returned sent outcome))
  | read : Served r pid .now time r

theorem exec_served {r after : Redis T} {c : Cmd T} {reply : Option (Reply c)}
    (answered : choice ≠ .lost ∧ choice ≠ .fails) (ran : exec r pid c choice = some (after,reply)) :
    ∃ answer, reply = some answer ∧ Served r pid c answer after := by
  cases choice with
  | lost => exact absurd rfl answered.1
  | fails => exact absurd rfl answered.2
  | handler outcome => cases c <;> cases ran; exact ⟨_,rfl,.handled⟩
  | clock time => cases c <;> cases ran; exact ⟨_,rfl,.read⟩
  | runs =>
      cases c with
      | setNX key =>
          cases ran
          refine ⟨_,rfl,?_⟩
          cases held : r.claims key with
          | true => simpa [Redis.ran,held] using Served.duplicate held
          | false => simpa [Redis.ran,held] using Served.claimed held
      | del key => cases ran; exact ⟨_,rfl,.released⟩
      | xack entry => cases ran; exact ⟨_,rfl,.acked⟩
      | xadd fields => cases ran; exact ⟨_,rfl,.buried⟩
      | xpending entry => cases ran; exact ⟨_,rfl,.pending⟩
      | handler sent => cases ran
      | now => cases ran

-- How the handler calls for an entry ended, newest first.
def returned? : Event T → Option Outcome
  | .returned _ outcome => some outcome
  | _ => none

def invocations (m : XMessage) (r : Redis T) : List Outcome :=
  r.journal.filterMap fun entry => if r.delivered entry.1 = some m then returned? entry.2 else none

def acknowledges (entry : String) : Event T → Bool
  | .acked id => id = entry
  | _ => false

def acknowledgements (m : XMessage) (r : Redis T) : Nat :=
  r.journal.countP fun entry => acknowledges m.id entry.2

def copies (m : XMessage) (r : Redis T) : List Fields :=
  r.dlq.filter fun fields => fields.get "_original_id" = some m.id

-- The records of an entry in Redis and in the journal, as a course.
structure Shows (exact : Bool) (cfg : ConsumerStreamConfig)
    (decode : XMessage → Envelope T × Option String) (m : XMessage) (r : Redis T)
    (d : Course) : Prop where
  pending : ∀ n, d.count = some n → ∃ now, r.pel m.id = some now ∧ n ≤ now ∧
    (exact = true → now = n)
  gone : d.count = none → r.pel m.id = none
  outcomes : invocations m r = d.outcomes
  free : d.free = true → (decode m).2 = none →
    r.claims (dedupKey cfg.stream (decode m).1.id) = false
  buried : copies m r = d.buried
  acks : acknowledgements m r = d.acks

variable {exact : Bool} {cfg : ConsumerStreamConfig}
  {decode : XMessage → Envelope T × Option String} {m other : XMessage} {r after : Redis T}
  {d : Course} {pid : Pid}

-- Two entries that cannot be taken for each other.
def Apart (decode : XMessage → Envelope T × Option String) (a b : XMessage) : Prop :=
  a.id ≠ b.id ∧ ((decode a).2 = none → (decode b).2 = none → (decode a).1.id ≠ (decode b).1.id)

theorem dedupKey_injective (same : dedupKey stream a = dedupKey stream b) : a = b :=
  (String.append_right_inj _).mp same

-- Only what is recorded of the entry matters.
theorem Shows.same (shows : Shows exact cfg decode m r d) (pel : after.pel m.id = r.pel m.id)
    (claims : (decode m).2 = none → r.claims (dedupKey cfg.stream (decode m).1.id) = false →
      after.claims (dedupKey cfg.stream (decode m).1.id) = false)
    (outcomes : invocations m after = invocations m r) (buried : copies m after = copies m r)
    (acks : acknowledgements m after = acknowledgements m r) :
    Shows exact cfg decode m after d where
  pending := pel ▸ shows.pending
  gone := pel ▸ shows.gone
  outcomes := outcomes.trans shows.outcomes
  free known decoded := claims decoded (shows.free known decoded)
  buried := buried.trans shows.buried
  acks := acks.trans shows.acks

-- What a new event adds to the records.
theorem acknowledgements_note {event : Event T} (silent : acknowledges m.id event = false) :
    acknowledgements m (r.note pid event) = acknowledgements m r :=
  List.countP_cons_of_neg (by simpa using silent)

theorem invocations_elsewhere {event : Event T} (elsewhere : r.delivered pid ≠ some m) :
    invocations m (r.note pid event) = invocations m r :=
  List.filterMap_cons_none (if_neg elsewhere)

theorem invocations_silent {event : Event T} (silent : returned? event = none) :
    invocations m (r.note pid event) = invocations m r := by
  refine List.filterMap_cons_none ?_
  dsimp only
  rw [silent,ite_self]

theorem Shows.note {event : Event T} (shows : Shows exact cfg decode m r d)
    (elsewhere : r.delivered pid ≠ some m) (silent : acknowledges m.id event = false) :
    Shows exact cfg decode m (r.note pid event) d :=
  shows.same rfl (fun _ => id) (invocations_elsewhere elsewhere) rfl (acknowledgements_note silent)

-- A command for another entry leaves no mark on this one.
theorem served_elsewhere {c : Cmd T} {answer : Reply c} (shows : Shows exact cfg decode m r d)
    (theirs : r.delivered pid = some other) (apart : Apart decode other m)
    (aimed : Aims cfg decode (some other) c) (served : Served r pid c answer after) :
    Shows exact cfg decode m after d := by
  have elsewhere : r.delivered pid ≠ some m := by
    rw [theirs]
    rintro ⟨⟩
    exact apart.1 rfl
  have unlocked {key : String} (held : Bool)
      (about : (decode other).2 = none ∧ key = dedupKey cfg.stream (decode other).1.id) :
      Shows exact cfg decode m {r with claims := Function.update r.claims key held} d := by
    refine shows.same rfl (fun decoded free => ?_) rfl rfl rfl
    have different : dedupKey cfg.stream (decode m).1.id ≠ key := by
      rw [about.2]
      exact fun same => apart.2 about.1 decoded (dedupKey_injective same).symm
    exact (Function.update_of_ne different _ _).trans free
  obtain ⟨_,same,about⟩ := aimed
  cases same
  cases served with
  | claimed free => exact (unlocked true about).note elsewhere rfl
  | duplicate held => exact shows.note elsewhere rfl
  | released => exact (unlocked false about).note elsewhere rfl
  | acked =>
      have pel : Shows exact cfg decode m {r with pel := Function.update r.pel other.id none} d :=
        shows.same (Function.update_of_ne apart.1.symm _ _) (fun _ => id) rfl rfl rfl
      cases about
      exact pel.note elsewhere (by simpa [acknowledges] using apart.1)
  | @buried fields =>
      have unrelated : ¬decide (fields.get "_original_id" = some m.id) = true := by
        simpa [about] using apart.1
      have dlq : Shows exact cfg decode m {r with dlq := fields :: r.dlq} d :=
        shows.same rfl (fun _ => id) rfl (List.filter_cons_of_neg unrelated) rfl
      exact dlq.note elsewhere rfl
  | pending => exact shows
  | handled => exact shows.note elsewhere rfl
  | read => exact shows

-- A command of the entry's own handle call moves its course.
theorem served_acts {c : Cmd T} {answer : Reply c} (shows : Shows exact cfg decode m r d)
    (mine : r.delivered pid = some m) (owed : Proceeds cfg decode m d c)
    (served : Served r pid c answer after) :
    ∃ next, Acts exact d c (some answer) next ∧ Shows exact cfg decode m after next ∧
      (own after.journal pid = [] → next = d ∧ own r.journal pid = []) := by
  obtain ⟨_,about⟩ := owed
  obtain ⟨pending,gone,outcomes,free,buried,acks⟩ := shows
  have marked {base : Redis T} {event : Event T} {P : Prop}
      (empty : own (base.note pid event).journal pid = []) : P := by
    rw [own_note_self] at empty
    cases empty
  cases served with
  | claimed unheld =>
      refine ⟨_,.claimed,⟨pending,gone,(invocations_silent rfl).trans outcomes,?_,buried,
        (acknowledgements_note rfl).trans acks⟩,marked⟩
      rintro ⟨⟩
  | duplicate held =>
      obtain ⟨decoded,rfl,known⟩ := about
      rw [free known decoded] at held
      cases held
  | released =>
      obtain ⟨_,rfl⟩ := about
      exact ⟨_,.released,⟨pending,gone,(invocations_silent rfl).trans outcomes,
        fun _ _ => Function.update_self ..,buried,(acknowledgements_note rfl).trans acks⟩,marked⟩
  | acked =>
      cases about
      refine ⟨_,.acked,⟨?_,fun _ => Function.update_self ..,(invocations_silent rfl).trans outcomes,
        free,buried,?_⟩,marked⟩
      · rintro _ ⟨⟩
      · simpa [acknowledgements,Redis.note,acknowledges] using acks
  | @buried fields =>
      refine ⟨_,.buried,⟨pending,gone,(invocations_silent rfl).trans outcomes,free,?_,
        (acknowledgements_note rfl).trans acks⟩,marked⟩
      exact (List.filter_cons_of_pos (by simpa using about)).trans (congrArg _ buried)
  | pending =>
      obtain ⟨rfl,present⟩ := about
      obtain ⟨n,count⟩ := Option.ne_none_iff_exists'.mp present
      obtain ⟨now,there,more,same⟩ := pending n count
      rw [there]
      exact ⟨d,.counted count more same,⟨pending,gone,outcomes,free,buried,acks⟩,
        fun empty => ⟨rfl,empty⟩⟩
  | handled =>
      refine ⟨_,.handled,⟨pending,gone,?_,free,buried,(acknowledgements_note rfl).trans acks⟩,
        marked⟩
      refine (List.filterMap_cons_some ?_).trans (congrArg _ outcomes)
      exact if_pos mine
  | read => exact ⟨d,.read,⟨pending,gone,outcomes,free,buried,acks⟩,fun empty => ⟨rfl,empty⟩⟩

theorem served_frame {c : Cmd T} {answer : Reply c} (served : Served r pid c answer after) :
    after.delivered = r.delivered ∧ after.read = r.read ∧ ∀ q, q ≠ pid →
      own after.journal q = own r.journal q := by
  cases served with
  | pending => exact ⟨rfl,rfl,fun _ _ => rfl⟩
  | read => exact ⟨rfl,rfl,fun _ _ => rfl⟩
  | _ => exact ⟨rfl,rfl,fun _ different => own_note_other _ _ different⟩

end Records

section Runs
variable {T : Type}

-- A handle call that is still running.
def calling : Option (Handling T) → Bool
  | some (.call _ _) => true
  | _ => false

-- Runs without Redis errors and crashes, in which the entry is not delivered
-- again while a handle call for it is running, and no two entries share an
-- envelope ID. A goroutine that is killed before it has left a trace is a
-- delivery that shutdown has dropped; with `exact` there are none of those.
def undisturbed (exact : Bool) (decode : XMessage → Envelope T × Option String) (m : XMessage)
    (s : Workers T) : Act Delivery Choice Surroundings → Prop
  | .spawn _ delivery =>
      delivery.message = m → ∀ q, s.shared.delivered q = some m → calling (s.threads q) = false
  | .step _ choice => choice ≠ .lost ∧ choice ≠ .fails
  | .kill pid => own s.shared.journal pid = [] ∧ (exact = true → s.shared.delivered pid ≠ some m)
  | .env (.produce new) => (decode new).2 = none → (decode new).1.id ≠ "" ∧
      ∀ entry ∈ s.shared.entries, (decode entry).2 = none → (decode entry).1.id ≠ (decode new).1.id
  | .env (.dropped entry) => exact = true → entry ≠ m.id
  | .env (.expire _) => True

structure Filed (decode : XMessage → Envelope T × Option String) (r : Redis T) : Prop where
  unborn : Unborn r
  stored : ∀ pid m, r.delivered pid = some m → m ∈ r.entries
  apart : ∀ a ∈ r.entries, ∀ b ∈ r.entries, a ≠ b → Apart decode a b
  named : ∀ a ∈ r.entries, (decode a).2 = none → (decode a).1.id ≠ ""

-- Another entry has the place of this one, which therefore never comes.
def Taken (decode : XMessage → Envelope T × Option String) (m : XMessage) (r : Redis T) : Prop :=
  ∃ other ∈ r.entries, other ≠ m ∧ ¬Apart decode other m

inductive Tracked (exact : Bool) (cfg : ConsumerStreamConfig)
    (decode : XMessage → Envelope T × Option String) (m : XMessage) (s : Workers T) : Prop where
  | unread (shows : Shows exact cfg decode m s.shared ⟨none,[],true,[],0⟩)
      (new : m.id ∉ s.shared.read) (nobody : ∀ q, s.shared.delivered q ≠ some m)
  | resting (shows : Shows exact cfg decode m s.shared d) (known : m.id ∈ s.shared.read)
      (rests : Rests exact cfg decode m d)
      (quiet : ∀ q, s.shared.delivered q = some m → calling (s.threads q) = false)
  | running (shows : Shows exact cfg decode m s.shared d) (known : m.id ∈ s.shared.read)
      (mine : s.shared.delivered p = some m) (here : s.threads p = some (.call c rest))
      (meets : Meets (Acts exact) (Proceeds cfg decode m) (Ends exact cfg decode m)
        (.call c rest) d)
      (alone : ∀ q, s.shared.delivered q = some m → calling (s.threads q) = true → q = p)
      (untouched : exact = false → own s.shared.journal p = [] → Rests exact cfg decode m d)

variable {exact : Bool} {cfg : ConsumerStreamConfig}
  {decode : XMessage → Envelope T × Option String} {m : XMessage} {r after : Redis T}
  {s next : Workers T} {d : Course} {pid : Pid}

-- Where a handle call stands after a step of its own.
theorem tracked_after {code : Handling T} (shows : Shows exact cfg decode m s.shared d)
    (known : m.id ∈ s.shared.read) (mine : s.shared.delivered pid = some m)
    (here : s.threads pid = some code)
    (meets : Meets (Acts exact) (Proceeds cfg decode m) (Ends exact cfg decode m) code d)
    (alone : ∀ q, s.shared.delivered q = some m → calling (s.threads q) = true → q = pid)
    (untouched : exact = false → own s.shared.journal pid = [] → Rests exact cfg decode m d) :
    Tracked exact cfg decode m s := by
  have quiet (finished : calling (some code) = false) (q : Pid)
      (theirs : s.shared.delivered q = some m) : calling (s.threads q) = false := by
    by_contra busy
    rw [Bool.not_eq_false] at busy
    rw [alone q theirs busy,here,finished] at busy
    cases busy
  cases code with
  | done value => exact .resting shows known meets.2 (quiet rfl)
  | fail value => exact .resting shows known meets.2 (quiet rfl)
  | call c next => exact .running shows known mine here meets alone untouched

-- A goroutine that has not been started yet has called no handler.
theorem invocations_delivered (unborn : own r.journal pid = [])
    (delivered : Function.update r.delivered pid found = after.delivered)
    (journal : after.journal = r.journal) : invocations m after = invocations m r := by
  rw [invocations,journal,← delivered]
  refine List.filterMap_congr fun entry member => ?_
  have different : entry.1 ≠ pid := by
    rintro rfl
    have there : entry.2 ∈ own r.journal entry.1 := mem_own.mpr member
    rw [unborn] at there
    cases there
  rw [Function.update_of_ne different]

theorem Shows.elsewhere (shows : Shows exact cfg decode m r d) (unborn : own r.journal pid = [])
  (different : other.id ≠ m.id)
    (count : Int) : Shows exact cfg decode m {r with
      pel := Function.update r.pel other.id (some count)
      read := other.id :: r.read
      delivered := Function.update r.delivered pid (some other)} d :=
  shows.same (Function.update_of_ne (Ne.symm different) _ _) (fun _ => id)
    (invocations_delivered unborn rfl rfl) rfl rfl

-- An act that has nothing to do with the entry.
theorem Tracked.frame (tracked : Tracked exact cfg decode m s)
    (shows : ∀ d, Shows exact cfg decode m s.shared d → Shows exact cfg decode m next.shared d)
    (read : m.id ∈ next.shared.read ↔ m.id ∈ s.shared.read)
    (delivered : ∀ q, next.shared.delivered q = some m ↔ s.shared.delivered q = some m)
    (threads : ∀ q, s.shared.delivered q = some m → next.threads q = s.threads q)
    (journal : ∀ q, s.shared.delivered q = some m →
      own next.shared.journal q = own s.shared.journal q) : Tracked exact cfg decode m next := by
  cases tracked with
  | unread shown new nobody =>
      exact .unread (shows _ shown) (fun known => new (read.mp known)) fun q theirs =>
        nobody q ((delivered q).mp theirs)
  | resting shown known rests quiet =>
      refine .resting (shows _ shown) (read.mpr known) rests fun q theirs => ?_
      have before := (delivered q).mp theirs
      exact threads q before ▸ quiet q before
  | @running _ p _ _ shown known mine here meets alone untouched =>
      refine .running (shows _ shown) (read.mpr known) ((delivered p).mpr mine)
        ((threads p mine).trans here) meets (fun q theirs busy => ?_) ?_
      · have before := (delivered q).mp theirs
        exact alone q before (threads q before ▸ busy)
      · rw [journal p mine]
        exact untouched

-- A delivery that was dropped leaves its entry as it was, only counted.
theorem Begins.rests (begins : Begins exact cfg decode m d) (lax : exact = false) :
    Rests exact cfg decode m d := by
  obtain ⟨n,count,fewer,_⟩ := begins.counted
  refine .pending count (Int.le_of_lt fewer) begins.failures begins.below begins.free begins.unburied
    begins.unacked begins.silent ?_
  rw [lax]
  nofun

-- The delivery of the entry itself raises its counter.
theorem Shows.delivered (shows : Shows exact cfg decode m r d) (unborn : own r.journal pid = [])
  (more : n ≤ now)
    (same : exact = true → now = n) : Shows exact cfg decode m {r with
      pel := Function.update r.pel m.id (some now)
      read := m.id :: r.read
      delivered := Function.update r.delivered pid (some m)} {d with count := some n} where
  pending _ counted := by
    cases counted
    exact ⟨now,Function.update_self ..,more,same⟩
  gone := nofun
  outcomes := by
    rw [← shows.outcomes]
    exact invocations_delivered unborn rfl rfl
  free := shows.free
  buried := shows.buried
  acks := shows.acks

variable {unmarshal : String → Envelope T × Option String} {zero : Envelope T} {delivery : Delivery}

theorem spawn_tracked (useDLQ : cfg.useDLQ = true)
    (filed : Filed (decodeMessage unmarshal zero) s.shared)
    (tracked : Tracked exact cfg (decodeMessage unmarshal zero) delivery.message s)
    (apart : ∀ q, s.shared.delivered q = some delivery.message → calling (s.threads q) = false)
    (accepted : accept s.shared pid delivery = some after) :
    Tracked exact cfg (decodeMessage unmarshal zero) delivery.message
      ⟨after,Function.update s.threads pid
        (some (handle cfg unmarshal zero delivery.message))⟩ := by
  obtain ⟨idle,present,count,how,rfl⟩ := accept_counts accepted
  have unborn := filed.unborn pid idle
  have begun {d : Course}
    (shows : Shows exact cfg (decodeMessage unmarshal zero) delivery.message {s.shared with
      pel := Function.update s.shared.pel delivery.message.id (some count)
      read := delivery.message.id :: s.shared.read
      delivered := Function.update s.shared.delivered pid (some delivery.message)} d)
      (begins : Begins exact cfg (decodeMessage unmarshal zero) delivery.message d) :
      Tracked exact cfg (decodeMessage unmarshal zero) delivery.message ⟨{s.shared with
        pel := Function.update s.shared.pel delivery.message.id (some count)
        read := delivery.message.id :: s.shared.read
        delivered := Function.update s.shared.delivered pid (some delivery.message)},
          Function.update s.threads pid (some (handle cfg unmarshal zero delivery.message))⟩ := by
    refine tracked_after shows List.mem_cons_self (Function.update_self ..)
      (Function.update_self ..) (handle_acts useDLQ begins (filed.named _ present))
      (fun q theirs busy => ?_) (fun lax _ => begins.rests lax)
    by_contra different
    dsimp only at theirs busy
    rw [Function.update_of_ne different] at theirs busy
    rw [apart q theirs] at busy
    cases busy
  cases tracked with
  | unread shows new nobody =>
      rcases how with ⟨_,rfl⟩ | ⟨before,pending,_⟩
      · refine begun (shows.delivered unborn (Int.le_refl 1) fun _ => rfl) ?_
        exact ⟨⟨1,rfl,by decide,fun _ => rfl⟩,nofun,nofun,rfl,rfl,rfl,fun _ => rfl⟩
      · rw [shows.gone rfl] at pending
        cases pending
  | resting shows known rests quiet =>
      rcases how with ⟨new,_⟩ | ⟨before,there,rfl⟩
      · exact absurd known new
      · cases rests with
        | @pending n counted delivered failures below free unburied unacked silent each =>
            obtain ⟨now,here,more,same⟩ := shows.pending n counted
            cases there.symm.trans here
            refine begun (shows.delivered unborn (Int.add_le_add_right more 1)
              fun all => by rw [same all]) ?_
            exact ⟨⟨_,rfl,Int.lt_add_one_of_le delivered,fun all => by rw [each all]⟩,failures,below,
              free,unburied,unacked,silent⟩
        | settled counted =>
            rw [shows.gone counted] at there
            cases there
  | running _ _ mine here _ _ _ =>
      have idle := apart _ mine
      rw [here] at idle
      cases idle

-- Another entry is delivered.
theorem spawn_elsewhere (filed : Filed decode s.shared) (tracked : Tracked exact cfg decode m s)
    (free : ¬Taken decode m s.shared) (different : delivery.message ≠ m)
    (accepted : accept s.shared pid delivery = some after) :
    Tracked exact cfg decode m ⟨after,Function.update s.threads pid (some code)⟩ := by
  obtain ⟨idle,present,count,_,rfl⟩ := accept_counts accepted
  have apart : Apart decode delivery.message m := by
    by_contra close
    exact free ⟨_,present,different,close⟩
  have unborn := filed.unborn pid idle
  have fresh {q : Pid} (theirs : s.shared.delivered q = some m) : q ≠ pid := by
    rintro rfl
    rw [idle] at theirs
    cases theirs
  refine tracked.frame (fun d shows => shows.elsewhere unborn apart.1 count) ?_ (fun q => ?_)
    (fun q theirs => ?_) (fun _ _ => rfl)
  · exact List.mem_cons.trans (or_iff_right (Ne.symm apart.1))
  · by_cases same : q = pid
    · subst same
      simpa [idle] using different
    · exact Eq.congr_left (Function.update_of_ne same _ _)
  · exact Function.update_of_ne (fresh theirs) _ _

theorem Apart.symm (apart : Apart decode a b) : Apart decode b a :=
  ⟨apart.1.symm,fun one two => (apart.2 two one).symm⟩

theorem Filed.kept (filed : Filed decode r) (unborn : Unborn after)
    (delivered : after.delivered = r.delivered)
    (entries : after.entries = r.entries) : Filed decode after where
  unborn := unborn
  stored := by rw [delivered,entries]; exact filed.stored
  apart := by rw [entries]; exact filed.apart
  named := by rw [entries]; exact filed.named

theorem Filed.produced (filed : Filed decode r) (fresh : ∀ entry ∈ r.entries, entry.id ≠ new.id)
    (named : (decode new).2 = none → (decode new).1.id ≠ "" ∧
      ∀ entry ∈ r.entries, (decode entry).2 = none → (decode entry).1.id ≠ (decode new).1.id) :
    Filed decode {r with entries := new :: r.entries} := by
  have apart {entry : XMessage} (member : entry ∈ r.entries) : Apart decode entry new :=
    ⟨fresh entry member,fun decoded there => (named there).2 entry member decoded⟩
  refine ⟨filed.unborn,fun pid m mine => List.mem_cons_of_mem _ (filed.stored pid m mine),?_,?_⟩
  · intro a first b second different
    rcases List.mem_cons.mp first with rfl | former
    · rcases List.mem_cons.mp second with rfl | latter
      · exact absurd rfl different
      · exact (apart latter).symm
    · rcases List.mem_cons.mp second with rfl | latter
      · exact apart former
      · exact filed.apart a former b latter different
  · intro a member decoded
    rcases List.mem_cons.mp member with rfl | member
    · exact (named decoded).1
    · exact filed.named a member decoded

theorem filed_sound : Sound (machine cfg unmarshal zero)
    (undisturbed exact (decodeMessage unmarshal zero) m)
    (Filed (decodeMessage unmarshal zero)) Redis.delivered (Heard fun _ _ => True)
      (Aims cfg (decodeMessage unmarshal zero))
    (fun _ _ => True) where
  accepts filed accepted := by
    have unborn := accept_unborn filed.unborn accepted
    have stored := accept_stored filed.stored accepted
    obtain ⟨_,_,count,rfl⟩ := accept_parts accepted
    refine ⟨⟨unborn,stored,filed.apart,filed.named⟩,?_,
      fun other different => Function.update_of_ne different _ _⟩
    dsimp only
    rw [Function.update_self]
    exact handle_aims
  executes filed here owed allowed ran := by
    obtain ⟨answer,rfl,done⟩ := exec_executed ran
    obtain ⟨delivered,entries,_⟩ := executed_kept done
    obtain ⟨entry,mine,_⟩ := owed
    have unborn := executed_unborn filed.unborn (mine.trans_ne (Option.some_ne_none entry)) done
    exact ⟨filed.kept unborn delivered entries,⟨congrFun delivered _,fun _ _ => trivial⟩,
      fun other _ => congrFun delivered other⟩
  abandons pid filed := ⟨filed,fun _ _ => rfl⟩
  environs {s event after} filed allowed ran := by
    have unborn := env_unborn filed.unborn ran
    refine ⟨?_,fun pid => congrFun (env_frame ran).2.2 pid⟩
    cases event with
    | produce new =>
        obtain ⟨fresh,same⟩ := Option.ite_none_right_eq_some.mp ran
        cases same
        exact filed.produced fresh allowed
    | expire key => cases ran; exact filed.kept unborn rfl rfl
    | dropped entry =>
        obtain ⟨count,_,rfl⟩ := Option.map_eq_some_iff.mp ran
        exact filed.kept unborn rfl rfl

theorem reply_tracked {c : Cmd T} {answer : Reply c} {rest : Reply c → Handling T}
    (filed : Filed decode s.shared) (tracked : Tracked exact cfg decode m s)
    (free : ¬Taken decode m s.shared) (aimed : Aims cfg decode (s.shared.delivered pid) c)
    (here : s.threads pid = some (.call c rest)) (served : Served s.shared pid c answer after) :
    Tracked exact cfg decode m ⟨after,Function.update s.threads pid (some (rest answer))⟩ := by
  obtain ⟨delivered,read,journal⟩ := served_frame served
  obtain ⟨entry,mine,_⟩ := id aimed
  have busy : calling (s.threads pid) = true := by rw [here]; rfl
  by_cases same : entry = m
  · subst same
    cases tracked with
    | unread _ _ nobody => exact absurd mine (nobody pid)
    | resting _ _ _ quiet =>
        rw [quiet pid mine] at busy
        cases busy
    | running shows known _ there meets alone untouched =>
        cases alone pid mine busy
        cases here.symm.trans there
        obtain ⟨after,acted,shown,traced⟩ := served_acts shows mine (meets_duty meets) served
        refine tracked_after shown (read ▸ known) (delivered ▸ mine) (Function.update_self ..)
          (meets_reply meets acted) ?_ ?_
        · intro q theirs running
          by_contra different
          dsimp only at theirs running
          rw [delivered] at theirs
          rw [Function.update_of_ne different] at running
          exact different (alone q theirs running)
        · intro lax empty
          obtain ⟨rfl,before⟩ := traced empty
          exact untouched lax before
  · have apart : Apart decode entry m := by
      by_contra close
      exact free ⟨entry,filed.stored pid entry mine,same,close⟩
    have elsewhere {q : Pid} (theirs : s.shared.delivered q = some m) : q ≠ pid := by
      rintro rfl
      exact same (Option.some.inj (mine.symm.trans theirs))
    exact tracked.frame (fun d shows => served_elsewhere shows mine apart (mine ▸ aimed) served)
      (by rw [read]) (fun q => by rw [delivered])
      (fun q theirs => Function.update_of_ne (elsewhere theirs) _ _)
      (fun q theirs => journal q (elsewhere theirs))

-- A goroutine that is dropped before it has left a trace.
theorem kill_tracked (tracked : Tracked exact cfg decode m s)
    (unmarked : own s.shared.journal pid = [])
    (lax : exact = true → s.shared.delivered pid ≠ some m) :
    Tracked exact cfg decode m ⟨s.shared,Function.update s.threads pid none⟩ := by
  have calls {q : Pid} (running : calling (Function.update s.threads pid none q) = true) : q ≠ pid ∧
      calling (s.threads q) = true := by
    by_cases same : q = pid
    · subst same
      rw [Function.update_self] at running
      cases running
    · rw [Function.update_of_ne same] at running
      exact ⟨same,running⟩
  cases tracked with
  | unread shows new nobody => exact .unread shows new nobody
  | resting shows known rests quiet =>
      refine .resting shows known rests fun q theirs => ?_
      by_contra running
      have busy := (calls (Bool.not_eq_false _ ▸ running)).2
      rw [quiet q theirs] at busy
      cases busy
  | @running _ p _ _ shows known mine here meets alone untouched =>
      by_cases same : p = pid
      · subst same
        have loose : exact = false := by
          by_contra strict
          exact lax (Bool.not_eq_false _ ▸ strict) mine
        refine .resting shows known (untouched loose unmarked) fun q theirs => ?_
        by_contra running
        have busy := calls (Bool.not_eq_false _ ▸ running)
        exact busy.1 (alone q theirs busy.2)
      · exact .running shows known mine ((Function.update_of_ne same _ _).trans here) meets
          (fun q theirs running => alone q theirs (calls running).2) untouched

theorem env_tracked (tracked : Tracked exact cfg decode m s)
    (allowed : undisturbed exact decode m s (.env event)) (ran : env s.shared event = some after) :
    Tracked exact cfg decode m {s with shared := after} := by
  obtain ⟨journal,dlq,delivered⟩ := env_frame ran
  have moved (read : after.read = s.shared.read)
    (shows : ∀ d, Shows exact cfg decode m s.shared d → Shows exact cfg decode m after d) :
    Tracked exact cfg decode m {s with shared := after} :=
    tracked.frame shows (by rw [read]) (fun q => by rw [delivered]) (fun _ _ => rfl)
    (fun q _ => by rw [journal])
  cases event with
  | produce new =>
      obtain ⟨_,same⟩ := Option.ite_none_right_eq_some.mp ran
      cases same
      exact moved rfl fun d shows => shows.same rfl (fun _ => id) rfl rfl rfl
  | expire key =>
      cases ran
      refine moved rfl fun d shows => shows.same rfl (fun _ free => ?_) rfl rfl rfl
      by_cases same : dedupKey cfg.stream (decode m).1.id = key
      · rw [same]
        exact Function.update_self ..
      · exact (Function.update_of_ne same _ _).trans free
  | dropped entry =>
      obtain ⟨count,there,rfl⟩ := Option.map_eq_some_iff.mp ran
      refine moved rfl fun d shows => ?_
      by_cases same : entry = m.id
      · subst same
        refine ⟨fun n counted => ?_,fun gone => ?_,shows.outcomes,shows.free,shows.buried,
          shows.acks⟩
        · obtain ⟨now,here,more,_⟩ := shows.pending n counted
          cases there.symm.trans here
          exact ⟨_,Function.update_self ..,by omega,fun strict => absurd rfl (allowed strict)⟩
        · rw [shows.gone gone] at there
          cases there
      · exact shows.same (Function.update_of_ne (Ne.symm same) _ _) (fun _ => id) rfl rfl rfl

theorem moves_entries (moves : Moves (machine cfg unmarshal zero) s act next) :
    s.shared.entries ⊆ next.shared.entries := by
  cases moves with
  | spawn accepted =>
      obtain ⟨_,_,_,rfl⟩ := accept_parts accepted
      exact List.Subset.refl _
  | wait _ ran =>
      obtain ⟨_,impossible,_⟩ := exec_executed ran
      cases impossible
  | reply _ ran =>
      obtain ⟨_,_,done⟩ := exec_executed ran
      rw [(executed_kept done).2.1]
      exact List.Subset.refl _
  | kill _ => exact List.Subset.refl _
  | @env event _ ran =>
      cases event with
      | produce new =>
          obtain ⟨_,same⟩ := Option.ite_none_right_eq_some.mp ran
          cases same
          exact List.subset_cons_self _ _
      | expire key => cases ran; exact List.Subset.refl _
      | dropped entry =>
          obtain ⟨count,_,rfl⟩ := Option.map_eq_some_iff.mp ran
          exact List.Subset.refl _

-- What one act keeps.
theorem moves_tracked (useDLQ : cfg.useDLQ = true)
    (filed : Filed (decodeMessage unmarshal zero) s.shared)
    (aims : ∀ pid c rest, s.threads pid = some (.call c rest) →
      Aims cfg (decodeMessage unmarshal zero) (s.shared.delivered pid) c)
    (sofar : Taken (decodeMessage unmarshal zero) m s.shared ∨
      Tracked exact cfg (decodeMessage unmarshal zero) m s)
    (allowed : undisturbed exact (decodeMessage unmarshal zero) m s act)
    (moves : Moves (machine cfg unmarshal zero) s act next) :
    Taken (decodeMessage unmarshal zero) m next.shared ∨
      Tracked exact cfg (decodeMessage unmarshal zero) m next := by
  by_cases taken : Taken (decodeMessage unmarshal zero) m s.shared
  · obtain ⟨other,member,different,close⟩ := taken
    exact .inl ⟨other,moves_entries moves member,different,close⟩
  · have tracked := sofar.resolve_left taken
    right
    cases moves with
    | @spawn pid delivery shared accepted =>
        by_cases same : delivery.message = m
        · subst same
          exact spawn_tracked useDLQ filed tracked (allowed rfl) accepted
        · exact spawn_elsewhere filed tracked taken same accepted
    | wait _ ran =>
        obtain ⟨_,impossible,_⟩ := exec_served allowed ran
        cases impossible
    | reply here ran =>
        obtain ⟨_,same,served⟩ := exec_served allowed ran
        cases same
        exact reply_tracked filed tracked taken (aims _ _ _ here) here served
    | kill _ => exact kill_tracked tracked allowed.1 allowed.2
    | env ran => exact env_tracked tracked allowed ran

theorem filed_empty : Filed decode Redis.empty where
  unborn _ _ := rfl
  stored _ _ := nofun
  apart _ member := absurd member List.not_mem_nil
  named _ member := absurd member List.not_mem_nil

theorem empty_tracked : Tracked exact cfg decode m (State.start Redis.empty) := by
  refine .unread ⟨nofun,fun _ => rfl,rfl,fun _ _ => rfl,rfl,rfl⟩ ?_ fun _ => nofun
  exact List.not_mem_nil

theorem reached_tracked (useDLQ : cfg.useDLQ = true)
    (path : Reached (machine cfg unmarshal zero)
      (undisturbed exact (decodeMessage unmarshal zero) m) (State.start Redis.empty) s)
    (stored : m ∈ s.shared.entries) : Tracked exact cfg (decodeMessage unmarshal zero) m s := by
  have kept {s : Workers T}
      (path : Reached (machine cfg unmarshal zero)
      (undisturbed exact (decodeMessage unmarshal zero) m) (State.start Redis.empty) s) :=
    reached_kept filed_sound filed_empty (fun _ => rfl) path
  have sofar := path.invariant
    (fun s => Taken (decodeMessage unmarshal zero) m s.shared ∨
      Tracked exact cfg (decodeMessage unmarshal zero) m s)
    (.inr empty_tracked) fun prior sofar allowed moves =>
      moves_tracked useDLQ (kept prior).1
        (fun pid c rest here => meets_duty ((kept prior).2 pid _ here)) sofar allowed moves
  refine sofar.resolve_left ?_
  rintro ⟨other,member,different,close⟩
  exact close ((kept path).1.apart other member m stored different)

-- What an acknowledged entry leaves behind.
def Delivered (m : XMessage) (r : Redis T) : Prop :=
  (invocations m r).head? = some .success ∧ copies m r = []

def DeadLettered (decode : XMessage → Envelope T × Option String) (m : XMessage)
    (r : Redis T) : Prop :=
  ((decode m).2 ≠ none ∧ invocations m r = [] ∨ ∃ outcome, (invocations m r).head? = some outcome ∧
    outcome ≠ .success) ∧ ∃ letter, copies m r = [letter] ∧ letter.get "_original_id" = some m.id ∧
    ∀ name, name ∉ metadataKeys → letter.get name = m.values.get name

theorem Fate.shown (fate : Fate decode m d) (shows : Shows exact cfg decode m r d) :
    Delivered m r ∨ DeadLettered decode m r := by
  unfold Delivered DeadLettered
  rw [shows.outcomes,shows.buried]
  cases fate with
  | handled last unburied =>
      rw [last]
      exact .inl ⟨rfl,unburied⟩
  | buried last once =>
      refine .inr ⟨last.imp_right ?_,_,once,deadLetter_original,
        fun name plain => deadLetter_kept plain⟩
      rintro ⟨outcome,earlier,same,failed⟩
      rw [same]
      exact ⟨outcome,rfl,failed⟩

theorem retries_bounded (useDLQ : cfg.useDLQ = true)
    (path : Reached (machine cfg unmarshal zero)
      (undisturbed exact (decodeMessage unmarshal zero) m) (State.start Redis.empty) s)
    (stored : m ∈ s.shared.entries) :
    ((invocations m s.shared).length : Int) ≤ max 1 cfg.maxRetries ∧
      acknowledgements m s.shared ≤ 1 ∧
    (acknowledgements m s.shared = 1 → Delivered m s.shared ∨
      DeadLettered (decodeMessage unmarshal zero) m s.shared) ∧
    (exact = true → (decodeMessage unmarshal zero m).2 = none →
      (∀ outcome ∈ invocations m s.shared, isFailure outcome = true) →
      (acknowledgements m s.shared = 1 →
        ((invocations m s.shared).length : Int) = max 1 cfg.maxRetries) ∧
      (acknowledgements m s.shared = 0 → m.id ∈ s.shared.read →
        (∀ q, s.shared.delivered q = some m → calling (s.threads q) = false) →
        s.shared.pel m.id = some ((invocations m s.shared).length : Int) ∧
          ((invocations m s.shared).length : Int) < max 1 cfg.maxRetries)) := by
  cases reached_tracked useDLQ path stored with
  | unread shows new _ =>
      rw [shows.outcomes,shows.acks]
      refine ⟨Int.le_trans (by decide) (Int.le_max_left 1 _),Nat.zero_le 1,nofun,
        fun _ _ _ => ⟨nofun,fun _ known => ?_⟩⟩
      exact absurd known new
  | @running d _ _ _ shows _ mine here meets _ _ =>
      obtain ⟨bound,unacked⟩ := (meets_duty meets).1
      rw [shows.outcomes,shows.acks,unacked]
      refine ⟨bound,Nat.zero_le 1,nofun,fun _ _ _ => ⟨nofun,fun _ _ quiet => ?_⟩⟩
      have idle := quiet _ mine
      rw [here] at idle
      cases idle
  | @resting d shows _ rests _ =>
      cases rests with
      | @pending n count delivered failures below _ _ unacked _ each =>
          rw [shows.outcomes,shows.acks,unacked]
          have under : (d.outcomes.length : Int) < max 1 cfg.maxRetries := by
            by_cases none' : d.outcomes = []
            · rw [none']
              exact Int.lt_of_lt_of_le (by decide) (Int.le_max_left 1 _)
            · exact Int.lt_of_lt_of_le (below none') (Int.le_max_right 1 _)
          refine ⟨Int.le_of_lt under,Nat.zero_le 1,nofun,
            fun strict _ _ => ⟨nofun,fun _ _ _ => ⟨?_,under⟩⟩⟩
          obtain ⟨now,there,_,same⟩ := shows.pending n count
          rw [there,same strict,each strict]
      | settled _ acked most fate each =>
          rw [shows.outcomes,shows.acks,acked]
          refine ⟨most,Nat.le_refl 1,fun _ => fate.shown shows,
            fun strict decoded failures => ⟨fun _ => ?_,nofun⟩⟩
          exact each strict decoded failures

end Runs

namespace Controls

-- The same runs with goroutines numbered below a bound.
def numbered (bound : Nat) (decode : XMessage → Envelope String × Option String) (m : XMessage)
    (s : Workers String) : Act Delivery Choice Surroundings → Prop
  | .spawn pid delivery =>
      pid < bound ∧ (delivery.message = m → ∀ q < bound, s.shared.delivered q = some m →
        calling (s.threads q) = false)
  | act => undisturbed true decode m s act

instance (bound : Nat) (decode : XMessage → Envelope String × Option String) (m : XMessage)
    (s : Workers String) (act : Act Delivery Choice Surroundings) :
    Decidable (numbered bound decode m s act) :=
  match act with
  | .spawn pid delivery => inferInstanceAs (Decidable (pid < bound ∧
      (delivery.message = m → ∀ q < bound, s.shared.delivered q = some m →
        calling (s.threads q) = false)))
  | .step _ choice => inferInstanceAs (Decidable (choice ≠ .lost ∧ choice ≠ .fails))
  | .kill pid =>
      inferInstanceAs (Decidable (own s.shared.journal pid = [] ∧
        (true = true → s.shared.delivered pid ≠ some m)))
  | .env (.produce new) =>
      inferInstanceAs (Decidable ((decode new).2 = none → (decode new).1.id ≠ "" ∧
      ∀ entry ∈ s.shared.entries, (decode entry).2 = none →
        (decode entry).1.id ≠ (decode new).1.id))
  | .env (.dropped entry) => inferInstanceAs (Decidable (true = true → entry ≠ m.id))
  | .env (.expire _) => .isTrue trivial

theorem numbered_undisturbed {cfg : ConsumerStreamConfig}
    {unmarshal : String → Envelope String × Option String} {zero : Envelope String}
    {s : Workers String}
    (path : Reached (machine cfg unmarshal zero) (numbered bound decode m)
      (State.start Redis.empty) s) :
    Reached (machine cfg unmarshal zero) (undisturbed true decode m)
      (State.start Redis.empty) s := by
  refine path.within (fun s => ∀ q, bound ≤ q → s.shared.delivered q = none) (fun _ _ => rfl) ?_ ?_
  · intro s act next unstarted allowed moves q high
    cases moves with
    | spawn accepted =>
        obtain ⟨_,_,_,rfl⟩ := accept_parts accepted
        have different : q ≠ _ := Nat.ne_of_gt (Nat.lt_of_lt_of_le allowed.1 high)
        exact (Function.update_of_ne different _ _).trans (unstarted q high)
    | wait _ ran =>
        obtain ⟨_,impossible,_⟩ := exec_executed ran
        cases impossible
    | reply _ ran =>
        obtain ⟨_,_,done⟩ := exec_executed ran
        exact (congrFun (executed_kept done).1 q).trans (unstarted q high)
    | kill _ => exact unstarted q high
    | env ran => exact (congrFun (env_frame ran).2.2 q).trans (unstarted q high)
  · intro s act unstarted allowed
    cases act with
    | spawn pid delivery =>
        intro same q theirs
        rcases Nat.lt_or_ge q bound with low | high
        · exact allowed.2 same q low theirs
        · rw [unstarted q high] at theirs
          cases theirs
    | step _ _ => exact allowed
    | kill _ => exact allowed
    | env _ => exact allowed

def refused (pid : Pid) (delivery : Delivery) : List (Act Delivery Choice Surroundings) :=
  [.spawn pid delivery,.step pid .runs,.step pid (.handler (.failure "smtp")),.step pid .runs,
    .step pid .runs]

def bury (pid : Pid) : List (Act Delivery Choice Surroundings) :=
  [.step pid (.clock "2024-01-01T00:00:00Z"),.step pid .runs,.step pid .runs]

-- Three failures, of which only the third finds the counter at the limit.
def exhausted : List (Act Delivery Choice Surroundings) :=
  .env (.produce order) :: refused 0 (.first order) ++ refused 1 (.again order) ++
    refused 2 (.again order) ++ bury 2

theorem retries_bounded_exhausted :
    ∃ s, Reached (machine mailStream parse ⟨"",0,""⟩)
      (undisturbed true (decodeMessage parse ⟨"",0,""⟩) order) (State.start Redis.empty) s ∧
      order ∈ s.shared.entries ∧ acknowledgements order s.shared = 1 ∧
        ((invocations order s.shared).length : Int) = 3 ∧
      (Delivered order s.shared ∨ DeadLettered (decodeMessage parse ⟨"",0,""⟩) order s.shared) := by
  obtain ⟨s,path,stored,acked,failures⟩ := run_finds (machine mailStream parse ⟨"",0,""⟩)
    (numbered 3 (decodeMessage parse ⟨"",0,""⟩) order) (State.start Redis.empty) exhausted
    (fun s => order ∈ s.shared.entries ∧ acknowledgements order s.shared = 1 ∧
      ∀ outcome ∈ invocations order s.shared, isFailure outcome = true) (by decide +kernel)
  have reached := numbered_undisturbed path
  obtain ⟨_,_,settled,each⟩ := retries_bounded rfl reached stored
  exact ⟨s,reached,stored,acked,(each rfl rfl failures).1 acked,settled acked⟩

-- An entry without a payload never reaches the handler.
def garbled : XMessage := ⟨"2-0",[]⟩

theorem undecodable_uncalled :
    ∃ s, Reached (machine mailStream parse ⟨"",0,""⟩)
      (undisturbed true (decodeMessage parse ⟨"",0,""⟩) garbled) (State.start Redis.empty) s ∧
      garbled ∈ s.shared.entries ∧ acknowledgements garbled s.shared = 1 ∧
        s.shared.pel garbled.id = none ∧
      (∀ outcome ∈ invocations garbled s.shared, isFailure outcome = true) ∧
      ((invocations garbled s.shared).length : Int) ≠ max 1 mailStream.maxRetries := by
  obtain ⟨s,path,found⟩ := run_finds (machine mailStream parse ⟨"",0,""⟩)
    (numbered 1 (decodeMessage parse ⟨"",0,""⟩) garbled) (State.start Redis.empty)
    ([.env (.produce garbled),.spawn 0 (.first garbled)] ++ bury 0)
    (fun s => garbled ∈ s.shared.entries ∧ acknowledgements garbled s.shared = 1 ∧
      s.shared.pel garbled.id = none ∧ (∀ outcome ∈ invocations garbled s.shared,
      isFailure outcome = true) ∧ ((invocations garbled s.shared).length :
      Int) ≠ max 1 mailStream.maxRetries) (by decide +kernel)
  exact ⟨s,numbered_undisturbed path,found⟩

end Controls
end RestApi.StreamConsumer
