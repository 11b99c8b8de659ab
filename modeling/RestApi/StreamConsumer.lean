import RestApi.Pool

namespace RestApi.StreamConsumer
open Program Pool

-- A Go map with string keys; writing a key replaces its value.
abbrev Fields := List (String × String)

def Fields.get (fields : Fields) (name : String) : Option String := fields.lookup name
def Fields.put (fields : Fields) (name value : String) : Fields :=
  (name,value) :: fields.filter fun field => field.1 ≠ name

structure XMessage where
  id : String
  values : Fields
  deriving DecidableEq, Repr

structure Envelope (T : Type) where
  id : String
  timestamp : Int
  payload : T
  deriving DecidableEq, Repr

structure ConsumerStreamConfig where
  stream : String
  useDLQ : Bool
  maxRetries : Int
  deriving DecidableEq, Repr

def dedupKey (stream id : String) : String := "dedup:" ++ stream ++ ":" ++ id

inductive Outcome where
  | success
  | failure (error : String)
  | panics (value : String)
  deriving DecidableEq, Repr

inductive SetReply where
  | ok
  | missing
  | err
  deriving DecidableEq, Repr

inductive Cmd (T : Type) where
  | setNX (key : String)
  | del (key : String)
  | xack (id : String)
  | xadd (fields : Fields)
  | xpending (id : String)
  | handler (env : Envelope T)
  | now

-- A Redis error tells the caller nothing about whether the command ran.
@[reducible] def Reply : Cmd T → Type
  | .setNX _ => SetReply
  | .del _ => Except Unit Unit
  | .xack _ => Except Unit Unit
  | .xadd _ => Except Unit Unit
  | .xpending _ => Except Unit (Option Int)
  | .handler _ => Outcome
  | .now => String

-- The error of a handle goroutine is the value of a panic on its way up.
abbrev Handling (T : Type) := Program (Cmd T) Reply String Unit

section Handle
variable {T : Type} (cfg : ConsumerStreamConfig) (unmarshal : String → Envelope T × Option String)
  (zero : Envelope T)

-- On a JSON error the partially filled envelope is returned beside the error.
def decodeMessage (m : XMessage) : Envelope T × Option String :=
  match m.values.get "payload" with
  | none => (zero,some "missing payload")
  | some raw => unmarshal raw

def ack (id : String) : Handling T := .call (.xack id) fun _ => .done ()

def deliveryCount (id : String) (next : Int → Handling T) : Handling T :=
  .call (.xpending id) fun
    | .ok (some retryCount) => next retryCount
    | _ => next 1

def deadLetter (m : XMessage) (reason errMsg failedAt : String) : Fields :=
  (((m.values.put "_original_id" m.id).put "_reason" reason).put "_error" errMsg).put
    "_failed_at" failedAt

-- With the DLQ disabled it reports success, so that the caller acks and drops.
def toDLQ (m : XMessage) (reason errMsg : String)
    (next : Except Unit Unit → Handling T) : Handling T :=
  if !cfg.useDLQ then next (.ok ()) else
    .call .now fun failedAt => .call (.xadd (deadLetter m reason errMsg failedAt)) next

-- A failed DLQ write leaves the entry pending for XAUTOCLAIM.
def toDLQThenAck (m : XMessage) (reason errMsg : String) : Handling T :=
  toDLQ cfg m reason errMsg fun
    | .error _ => .done ()
    | .ok _ => ack m.id

def handleFailure (m : XMessage) (key err : String) : Handling T :=
  .call (.del key) fun _ => deliveryCount m.id fun deliveries =>
    if deliveries ≥ cfg.maxRetries then toDLQThenAck cfg m "max_retries" err else .done ()

def handleDecoded (m : XMessage) (env : Envelope T) : Handling T :=
  let key := dedupKey cfg.stream env.id
  .call (.setNX key) fun claim =>
    if claim = .missing then ack m.id else
      .call (.handler env) fun
        | .success => ack m.id
        | .panics value => .fail value
        | .failure err => handleFailure cfg m key err

-- The deferred recover.
def recovered (m : XMessage) (env : Envelope T) (value : String) : Handling T :=
  let route := toDLQThenAck cfg m "panic" ("panic handling message: " ++ value)
  if env.id ≠ "" then .call (.del (dedupKey cfg.stream env.id)) fun _ => route else route

def handle (m : XMessage) : Handling T :=
  let decoded := decodeMessage unmarshal zero m
  let body : Handling T := match decoded.2 with
    | some err => toDLQThenAck cfg m "decode_error" err
    | none => handleDecoded cfg m decoded.1
  body.catching (recovered cfg m decoded.1)

end Handle

-- What a Redis command did to the shared state on behalf of one goroutine.
inductive Event (T : Type) where
  | claimed (key : String)
  | duplicate (key : String)
  | released (key : String)
  | returned (env : Envelope T) (outcome : Outcome)
  | buried (fields : Fields)
  | acked (id : String)
  deriving DecidableEq

-- `entries` is the stream, `read` what the group has handed out of it, `pel` its
-- pending list with the delivery counters, `claims` the dedup keys, `dlq` the
-- stream `<stream>.dlq`. `journal` is history only: no command reads it.
structure Redis (T : Type) where
  entries : List XMessage
  read : List String
  pel : String → Option Int
  claims : String → Bool
  dlq : List Fields
  delivered : Pid → Option XMessage
  journal : List (Pid × Event T)

-- `lost`: the command ran but its reply did not arrive; `fails`: it did not run
-- (network, timeout, cancelled context).
inductive Choice where
  | runs
  | lost
  | fails
  | handler (outcome : Outcome)
  | clock (time : String)
  deriving DecidableEq, Repr

def Redis.note (r : Redis T) (pid : Pid) (event : Event T) : Redis T :=
  {r with journal := (pid,event) :: r.journal}

def Redis.ran (r : Redis T) (pid : Pid) : Cmd T → Redis T
  | .setNX key =>
      if r.claims key then r.note pid (.duplicate key)
      else {r with claims := Function.update r.claims key true}.note pid (.claimed key)
  | .del key => {r with claims := Function.update r.claims key false}.note pid (.released key)
  | .xack id => {r with pel := Function.update r.pel id none}.note pid (.acked id)
  | .xadd fields => {r with dlq := fields :: r.dlq}.note pid (.buried fields)
  | _ => r

def exec (r : Redis T) (pid : Pid) : (c : Cmd T) → Choice → Option (Redis T × Option (Reply c))
  | .setNX key,.runs => some (r.ran pid (.setNX key),some (if r.claims key then .missing else .ok))
  | .setNX key,.lost => some (r.ran pid (.setNX key),some .err)
  | .setNX _,.fails => some (r,some .err)
  | .del key,.runs => some (r.ran pid (.del key),some (.ok ()))
  | .del key,.lost => some (r.ran pid (.del key),some (.error ()))
  | .del _,.fails => some (r,some (.error ()))
  | .xack id,.runs => some (r.ran pid (.xack id),some (.ok ()))
  | .xack id,.lost => some (r.ran pid (.xack id),some (.error ()))
  | .xack _,.fails => some (r,some (.error ()))
  | .xadd fields,.runs => some (r.ran pid (.xadd fields),some (.ok ()))
  | .xadd fields,.lost => some (r.ran pid (.xadd fields),some (.error ()))
  | .xadd _,.fails => some (r,some (.error ()))
  | .xpending id,.runs => some (r,some (.ok (r.pel id)))
  | .xpending _,.lost => some (r,some (.error ()))
  | .xpending _,.fails => some (r,some (.error ()))
  | .handler env,.handler outcome => some (r.note pid (.returned env outcome),some outcome)
  | .now,.clock time => some (r,some time)
  | _,_ => none

-- XREADGROUP hands out an entry for the first time, XAUTOCLAIM one that is still
-- pending; both start a handle goroutine.
inductive Delivery where
  | first (m : XMessage)
  | again (m : XMessage)
  deriving DecidableEq, Repr

def Delivery.message : Delivery → XMessage
  | .first m => m
  | .again m => m

def accept (r : Redis T) (pid : Pid) (d : Delivery) : Option (Redis T) :=
  let m := d.message
  if r.delivered pid = none ∧ m ∈ r.entries then
    let started (count : Int) : Redis T :=
      {r with
        pel := Function.update r.pel m.id (some count)
        read := m.id :: r.read
        delivered := Function.update r.delivered pid (some m)}
    match d with
    | .first _ => if m.id ∈ r.read then none else some (started 1)
    | .again _ => (r.pel m.id).map fun count => started (count+1)
  else none

inductive Surroundings where
  | produce (m : XMessage)
  | expire (key : String)
  -- XAUTOCLAIM claimed the entry, but shutdown dropped it before a goroutine ran.
  | dropped (id : String)
  deriving DecidableEq, Repr

def env (r : Redis T) : Surroundings → Option (Redis T)
  | .produce m =>
      if ∀ entry ∈ r.entries, entry.id ≠ m.id then some {r with entries := m :: r.entries} else none
  | .expire key => some {r with claims := Function.update r.claims key false}
  | .dropped id =>
      (r.pel id).map fun count => {r with pel := Function.update r.pel id (some (count+1))}

def Redis.empty : Redis T := ⟨[],[],fun _ => none,fun _ => false,[],fun _ => none,[]⟩

-- A worker crash kills goroutines; Redis does not notice.
def machine (cfg : ConsumerStreamConfig) (unmarshal : String → Envelope T × Option String)
    (zero : Envelope T) :
    Machine (Cmd T) Reply String Unit (Redis T) Delivery Choice Surroundings where
  code d := handle cfg unmarshal zero d.message
  accept := accept
  exec := exec
  abandon r _ := r
  env := env

end RestApi.StreamConsumer
