import RestApi.StreamView

namespace RestApi.StreamConsumer
open Program Pool

section Letters
variable {fields : Fields} {m : XMessage}

theorem get_put_self (fields : Fields) (name value : String) :
    (fields.put name value).get name = some value := by
  simp [Fields.get,Fields.put]

theorem get_put_other (different : name ≠ other) :
    (fields.put other value).get name = fields.get name := by
  have swept (fields : Fields) : List.lookup name (fields.filter fun field => field.1 ≠ other) =
      List.lookup name fields := by
    induction fields with
    | nil => rfl
    | cons field rest ih =>
        by_cases dropped : field.1 = other
        · have unequal : (name == field.1) = false := by simpa [dropped] using different
          rw [List.filter_cons_of_neg (by simpa using dropped),ih,List.lookup_cons,unequal]
        · rw [List.filter_cons_of_pos (by simpa using dropped),List.lookup_cons,List.lookup_cons,ih]
  have unequal : (name == other) = false := by simpa using different
  rw [Fields.get,Fields.put,List.lookup_cons,unequal]
  exact swept fields

-- The keys toDLQ writes itself.
def metadataKeys : List String := ["_original_id","_reason","_error","_failed_at"]

theorem deadLetter_original :
    (deadLetter m reason errMsg failedAt).get "_original_id" = some m.id := by
  rw [deadLetter,get_put_other (by decide),get_put_other (by decide),get_put_other (by decide),
    get_put_self]

theorem deadLetter_kept (plain : name ∉ metadataKeys) :
    (deadLetter m reason errMsg failedAt).get name = m.values.get name := by
  simp only [metadataKeys,List.mem_cons,List.not_mem_nil,or_false,not_or] at plain
  obtain ⟨original,why,err,time⟩ := plain
  rw [deadLetter,get_put_other time,get_put_other err,get_put_other why,get_put_other original]

end Letters

section Course

-- What has become of one entry so far: a lower bound of its delivery counter
-- while it is pending, how its handler calls ended, whether its dedup claim is
-- known to be free, its copies in the DLQ and its acknowledgements.
structure Course where
  count : Option Int
  outcomes : List Outcome
  free : Bool
  buried : List Fields
  acks : Nat

def isFailure : Outcome → Bool
  | .failure _ => true
  | _ => false

variable {T : Type} (exact : Bool) (cfg : ConsumerStreamConfig)
  (decode : XMessage → Envelope T × Option String) (m : XMessage)

-- Why an entry is in the DLQ, or why it is not.
inductive Fate (d : Course) : Prop where
  | handled (last : d.outcomes = .success :: earlier) (unburied : d.buried = [])
  | buried
      (last : (decode m).2 ≠ none ∧ d.outcomes = [] ∨
        ∃ outcome earlier, d.outcomes = outcome :: earlier ∧ outcome ≠ .success)
      (once : d.buried = [deadLetter m reason errMsg failedAt])

-- Between two handle calls. With `exact` no delivery has been dropped.
inductive Rests (d : Course) : Prop where
  | pending (count : d.count = some n) (delivered : (d.outcomes.length : Int) ≤ n)
      (failures : ∀ o ∈ d.outcomes, isFailure o = true)
      (below : d.outcomes ≠ [] → (d.outcomes.length : Int) < cfg.maxRetries) (free : d.free = true)
      (unburied : d.buried = []) (unacked : d.acks = 0)
      (silent : (decode m).2 ≠ none → d.outcomes = [])
      (each : exact = true → (d.outcomes.length : Int) = n)
  | settled (count : d.count = none) (acked : d.acks = 1)
      (most : (d.outcomes.length : Int) ≤ max 1 cfg.maxRetries) (fate : Fate decode m d)
      (each : exact = true → (decode m).2 = none → (∀ o ∈ d.outcomes, isFailure o = true) →
        (d.outcomes.length : Int) = max 1 cfg.maxRetries)

-- At the start of a handle call: its own delivery is counted already.
structure Begins (d : Course) : Prop where
  counted : ∃ n, d.count = some n ∧ (d.outcomes.length : Int) < n ∧
    (exact = true → (d.outcomes.length : Int)+1 = n)
  failures : ∀ o ∈ d.outcomes, isFailure o = true
  below : d.outcomes ≠ [] → (d.outcomes.length : Int) < cfg.maxRetries
  free : d.free = true
  unburied : d.buried = []
  unacked : d.acks = 0
  silent : (decode m).2 ≠ none → d.outcomes = []

-- One command of a handle call for the entry, without Redis errors.
inductive Acts (d : Course) : (c : Cmd T) → Option (Reply c) → Course → Prop where
  | claimed : Acts d (.setNX key) (some .ok) {d with free := false}
  | released : Acts d (.del key) (some (.ok ())) {d with free := true}
  | acked : Acts d (.xack entry) (some (.ok ())) {d with count := none,acks := d.acks+1}
  | buried : Acts d (.xadd fields) (some (.ok ())) {d with buried := fields :: d.buried}
  | counted (pending : d.count = some n) (more : n ≤ now) (same : exact = true → now = n) :
      Acts d (.xpending entry) (some (.ok (some now))) d
  | handled : Acts d (.handler sent) (some outcome) {d with outcomes := outcome :: d.outcomes}
  | read : Acts d .now (some time) d

-- What a handle call owes at each command: it is about its own entry, whose
-- handler was not called too often and which is not acknowledged yet.
def Proceeds (d : Course) (c : Cmd T) : Prop :=
  ((d.outcomes.length : Int) ≤ max 1 cfg.maxRetries ∧ d.acks = 0) ∧ match c with
  | .setNX key => (decode m).2 = none ∧ key = dedupKey cfg.stream (decode m).1.id ∧ d.free = true
  | .del key => (decode m).2 = none ∧ key = dedupKey cfg.stream (decode m).1.id
  | .xack id => id = m.id
  | .xadd fields => fields.get "_original_id" = some m.id
  | .xpending id => id = m.id ∧ d.count ≠ none
  | .handler _ => (decode m).2 = none
  | .now => True

def Ends (d : Course) (result : Except String Unit) : Prop :=
  result = .ok () ∧ Rests exact cfg decode m d

variable {exact cfg decode m} {d : Course} {post : Course → Except String Unit → Prop}

theorem acts_call {c : Cmd T} {next : Reply c → Handling T} (owed : Proceeds cfg decode m d c)
    (continues : ∀ answer after, Acts exact d c (some answer) after →
      Meets (Acts exact) (Proceeds cfg decode m) post (next answer) after) :
    Meets (Acts exact) (Proceeds cfg decode m) post (.call c next) d := by
  intro middle waited
  have still : middle = d := by
    induction waited with
    | refl => rfl
    | tail _ stepped _ => cases stepped
  subst still
  exact ⟨owed,continues⟩

theorem ack_acts (bounds : (d.outcomes.length : Int) ≤ max 1 cfg.maxRetries ∧ d.acks = 0)
    (settled : post {d with count := none,acks := 1} (.ok ())) :
    Meets (Acts exact) (Proceeds cfg decode m) post (ack m.id) d := by
  refine acts_call ⟨bounds,rfl⟩ fun _ _ acted => ?_
  cases acted
  simpa [Meets,bounds.2] using settled

theorem toDLQThenAck_acts (useDLQ : cfg.useDLQ = true)
    (bounds : (d.outcomes.length : Int) ≤ max 1 cfg.maxRetries ∧ d.acks = 0)
    (settled : ∀ failedAt, post
      {d with count := none,buried := deadLetter m reason errMsg failedAt :: d.buried,acks := 1}
      (.ok ())) :
    Meets (Acts exact) (Proceeds cfg decode m) post (toDLQThenAck cfg m reason errMsg) d := by
  simp only [toDLQThenAck,toDLQ,useDLQ,Bool.not_true,Bool.false_eq_true,if_false]
  refine acts_call ⟨bounds,trivial⟩ fun failedAt _ acted => ?_
  cases acted
  refine acts_call ⟨bounds,deadLetter_original⟩ fun _ _ acted => ?_
  cases acted
  exact ack_acts bounds (settled failedAt)

variable {sent : Envelope T} {unmarshal : String → Envelope T × Option String} {zero : Envelope T}

-- One more call stays within the limit.
theorem Begins.bound (begins : Begins exact cfg decode m d) (outcome : Outcome) :
    ((outcome :: d.outcomes).length : Int) ≤ max 1 cfg.maxRetries := by
  by_cases none' : d.outcomes = []
  · rw [none']
    exact Int.le_max_left 1 cfg.maxRetries
  · have below := begins.below none'
    rw [List.length_cons]
    push_cast
    omega

theorem Begins.bounds (begins : Begins exact cfg decode m d) :
    (d.outcomes.length : Int) ≤ max 1 cfg.maxRetries ∧ d.acks = 0 := by
  have next := begins.bound .success
  rw [List.length_cons] at next
  push_cast at next
  exact ⟨by omega,begins.unacked⟩

theorem handleFailure_acts (useDLQ : cfg.useDLQ = true) (begins : Begins exact cfg decode m d)
    (decoded : (decode m).2 = none) (free : Bool) :
    Meets (Acts exact) (Proceeds cfg decode m) (Ends exact cfg decode m)
      (handleFailure cfg m (dedupKey cfg.stream (decode m).1.id) err)
        {d with outcomes := .failure err :: d.outcomes,free := free} := by
  obtain ⟨n,count,fewer,each⟩ := begins.counted
  have bound := begins.bound (.failure err)
  have failures : ∀ o ∈ .failure err :: d.outcomes, isFailure o = true :=
    List.forall_mem_cons.mpr ⟨rfl,begins.failures⟩
  refine acts_call ⟨⟨bound,begins.unacked⟩,decoded,rfl⟩ fun _ _ acted => ?_
  cases acted
  refine acts_call ⟨⟨bound,begins.unacked⟩,rfl,by rw [count]; exact Option.some_ne_none n⟩
    fun _ _ acted => ?_
  cases acted with
  | counted pending more same =>
      cases count.symm.trans pending
      dsimp only
      split
      · rename_i enough
        refine toDLQThenAck_acts useDLQ ⟨bound,begins.unacked⟩ fun failedAt =>
          ⟨rfl,.settled rfl rfl bound ?_ ?_⟩
        · exact .buried (.inr ⟨_,_,rfl,nofun⟩) (by rw [begins.unburied])
        · intro all _ _
          have counted := each all
          have told := same all
          by_cases none' : d.outcomes = []
          · simp only [none',List.length_nil,List.length_cons] at counted ⊢
            push_cast at counted ⊢
            omega
          · have below := begins.below none'
            rw [List.length_cons]
            push_cast
            omega
      · rename_i few
        have under : ((.failure err :: d.outcomes).length : Int) < cfg.maxRetries := by
          rw [List.length_cons]
          push_cast
          omega
        refine ⟨rfl,.pending count ?_ failures (fun _ => under) rfl begins.unburied begins.unacked
          (absurd decoded) ?_⟩
        · rw [List.length_cons]
          push_cast
          omega
        · intro all
          rw [List.length_cons]
          push_cast
          exact each all

-- A panic goes to the DLQ at once, whatever the counter says.
theorem recovered_acts (useDLQ : cfg.useDLQ = true) (begins : Begins exact cfg decode m d)
    (decoded : (decode m).2 = none) (named : (decode m).1.id ≠ "") (free : Bool) :
    Meets (Acts exact) (Proceeds cfg decode m) (Ends exact cfg decode m)
      (recovered cfg m (decode m).1 value)
        {d with outcomes := .panics value :: d.outcomes,free := free} := by
  have bound := begins.bound (.panics value)
  simp only [recovered,if_pos named]
  refine acts_call ⟨⟨bound,begins.unacked⟩,decoded,rfl⟩ fun _ _ acted => ?_
  cases acted
  refine toDLQThenAck_acts useDLQ ⟨bound,begins.unacked⟩ fun failedAt =>
    ⟨rfl,.settled rfl rfl bound ?_ ?_⟩
  · exact .buried (.inr ⟨_,_,rfl,nofun⟩) (by rw [begins.unburied])
  · intro _ _ failures
    cases (List.forall_mem_cons.mp failures).1

-- Every course of one handle call.
theorem handle_acts (useDLQ : cfg.useDLQ = true)
    (begins : Begins exact cfg (decodeMessage unmarshal zero) m d)
   
    (named : (decodeMessage unmarshal zero m).2 = none →
      (decodeMessage unmarshal zero m).1.id ≠ "") :
    Meets (Acts exact) (Proceeds cfg (decodeMessage unmarshal zero) m)
      (Ends exact cfg (decodeMessage unmarshal zero) m)
      (handle cfg unmarshal zero m) d := by
  have bounds := begins.bounds
  apply meets_settle
  cases decoded : (decodeMessage unmarshal zero m).2 with
  | some err =>
      have failed : (decodeMessage unmarshal zero m).2 ≠ none := by
        rw [decoded]; exact Option.some_ne_none err
      have silent := begins.silent failed
      refine toDLQThenAck_acts useDLQ bounds fun failedAt =>
        ⟨rfl,.settled rfl rfl bounds.1 ?_ fun _ fine => absurd fine failed⟩
      exact .buried (.inl ⟨failed,silent⟩) (by rw [begins.unburied])
  | none =>
      refine acts_call ⟨bounds,decoded,rfl,begins.free⟩ fun _ _ acted => ?_
      cases acted
      rw [if_neg nofun]
      refine acts_call ⟨bounds,decoded⟩ fun outcome _ acted => ?_
      cases acted
      have bound := begins.bound outcome
      cases outcome with
      | success =>
          refine ack_acts ⟨bound,begins.unacked⟩
            ⟨rfl,.settled rfl rfl bound (.handled rfl begins.unburied) fun _ _ failures => ?_⟩
          cases (List.forall_mem_cons.mp failures).1
      | panics value => exact recovered_acts useDLQ begins decoded (named decoded) false
      | failure err =>
          refine meets_mono (fun _ _ owed => owed) (fun after result ended => ?_)
            (handleFailure_acts useDLQ begins decoded false)
          obtain ⟨rfl,rests⟩ := ended
          exact ⟨rfl,rests⟩

end Course

section Aims
variable {T : Type} {cfg : ConsumerStreamConfig} {unmarshal : String → Envelope T × Option String}
  {zero : Envelope T} {m : XMessage}

-- Every command of a goroutine is about the entry it was started for.
def Aims (cfg : ConsumerStreamConfig) (decode : XMessage → Envelope T × Option String)
    (v : Option XMessage) (c : Cmd T) : Prop :=
  ∃ m, v = some m ∧ match c with
  | .setNX key => (decode m).2 = none ∧ key = dedupKey cfg.stream (decode m).1.id
  | .del key => (decode m).2 = none ∧ key = dedupKey cfg.stream (decode m).1.id
  | .xack entry => entry = m.id
  | .xadd fields => fields.get "_original_id" = some m.id
  | _ => True

theorem toDLQThenAck_aims {decode : XMessage → Envelope T × Option String}
    {post : Option XMessage → Except String Unit → Prop} (fine : post (some m) (.ok ())) :
    Meets (Heard fun _ _ => True) (Aims cfg decode) post (toDLQThenAck cfg m reason errMsg)
      (some m) := by
  have acks : Meets (Heard fun _ _ => True) (Aims cfg decode) post (ack m.id) (some m) :=
    meets_heard ⟨m,rfl,rfl⟩ fun _ _ => fine
  simp only [toDLQThenAck,toDLQ]
  split
  · exact acks
  · refine meets_heard ⟨m,rfl,trivial⟩ fun failedAt _ => meets_heard ⟨m,rfl,deadLetter_original⟩
      fun answer _ => ?_
    cases answer with
    | error _ => exact fine
    | ok _ => exact acks

theorem handleFailure_aims {decode : XMessage → Envelope T × Option String}
    {post : Option XMessage → Except String Unit → Prop} (fine : post (some m) (.ok ()))
    (decoded : (decode m).2 = none) :
    Meets (Heard fun _ _ => True) (Aims cfg decode) post
      (handleFailure cfg m (dedupKey cfg.stream (decode m).1.id) err) (some m) := by
  have decided (deliveries : Int) : Meets (Heard fun _ _ => True) (Aims cfg decode) post
      (if deliveries ≥ cfg.maxRetries then toDLQThenAck cfg m "max_retries" err else .done ())
          (some m) := by
    split
    · exact toDLQThenAck_aims fine
    · exact fine
  refine meets_heard ⟨m,rfl,decoded,rfl⟩ fun _ _ => meets_heard ⟨m,rfl,trivial⟩ fun answer _ => ?_
  split <;> exact decided _

theorem handle_aims : Meets (Heard fun _ _ => True) (Aims cfg (decodeMessage unmarshal zero))
    (fun _ _ => True)
    (handle cfg unmarshal zero m) (some m) := by
  apply meets_settle
  cases decoded : (decodeMessage unmarshal zero m).2 with
  | some err => exact toDLQThenAck_aims trivial
  | none =>
      refine meets_heard ⟨m,rfl,decoded,rfl⟩ fun claim _ => ?_
      split
      · exact meets_heard ⟨m,rfl,rfl⟩ fun _ _ => trivial
      · refine meets_heard ⟨m,rfl,trivial⟩ fun outcome _ => ?_
        cases outcome with
        | success => exact meets_heard ⟨m,rfl,rfl⟩ fun _ _ => trivial
        | failure err => exact handleFailure_aims trivial decoded
        | panics value =>
            dsimp only [recovered,Meets]
            split
            · exact meets_heard ⟨m,rfl,decoded,rfl⟩ fun _ _ => toDLQThenAck_aims trivial
            · exact toDLQThenAck_aims trivial

end Aims
end RestApi.StreamConsumer
