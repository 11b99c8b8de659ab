import RestApi.Domain
import RestApi.RowScan

namespace RestApi
open Pool RowStore

-- rbac.Context and audit.Context, as the middlewares put them into a request.
structure RbacContext where
  userID : Option UUID
  role : Role
  sessionID : UUID
  deriving DecidableEq, Repr

structure AuditContext where
  ip : String
  requestID : String
  userAgent : String
  deriving DecidableEq, Repr

structure Ctx where
  rbac : Option RbacContext
  audit : Option AuditContext
  deriving DecidableEq, Repr

-- A signed JWT is as good as its claims: HS256 is deterministic.
structure AccessToken where
  subject : UUID
  sessionID : UUID
  role : Role
  issuedAt : Time
  expiresAt : Time
  deriving DecidableEq, Repr

-- Configuration, the permission table and the library functions the services
-- call; nothing is assumed of them here.
structure Config where
  hashStr : String → String
  compareHashAndPassword : String → String → Bool
  parseAddress : String → Bool
  toUpper : String → String
  can : Role → Permission → Bool
  internalMode : Bool
  jwtTTL : Duration
  sessionTTL : Duration
  passwordRecoveryTokenTTL : Duration
  registrationTokenTTL : Duration
  completeRegistrationFormEndpoint : String
  resetPasswordFormEndpoint : String
  revocationFailClosed : Bool

inductive Request where
  | register (ctx : Ctx) (name email : String)
  | completeRegistration (ctx : Ctx) (token password : String)
  | login (ctx : Ctx) (email password : String)
  | refreshAccessToken (ctx : Ctx) (refreshToken : String)
  | logout (ctx : Ctx) (sessID : UUID)
  | recoverPassword (ctx : Ctx) (email : String)
  | resetPassword (ctx : Ctx) (token newPassword : String)
  | changePassword (ctx : Ctx) (userID : UUID) (password newPassword : String)
  | revokeUserSessions (ctx : Ctx) (userID : UUID)
  | revokeSession (ctx : Ctx) (sessionID : UUID)
  | updateUser (ctx : Ctx) (userID : UUID) (name phone gender : String)
  | deleteUser (ctx : Ctx) (userID : UUID)
  | changeProfilePicture (ctx : Ctx) (userID : UUID) (ext : String)
  | deleteProfilePicture (ctx : Ctx) (userID : UUID)
  | authenticate (token : AccessToken)
  deriving DecidableEq, Repr

structure Message where
  stream : String
  recipient : String
  name : String
  url : String
  expiry : Duration
  deriving DecidableEq, Repr

inductive Value where
  | nil
  | tokenPair (accessToken : AccessToken) (refreshToken : String)
  | throttle (allowed : Bool) (retryAfter : Time)
  | claims (token : AccessToken)
  deriving DecidableEq, Repr

-- `lock` is SELECT .. FOR UPDATE. What a statement writes may use NOW(), the
-- start of its transaction, and for an insert the next identity value.
inductive Cmd where
  | clock
  | newUUID
  | opaqueToken
  | bcrypt (plain : String)
  | select (test : Row → Bool)
  | openTx
  | lock (test : Row → Bool)
  | update (test : Row → Bool) (set : Time → Row → Row)
  | insert (make : Time → Nat → Row)
  | commit
  | rollback
  | sign (signedAt : Time) (token : AccessToken)
  | verify (token : AccessToken)
  | redisSet (key value : String) (ttl : Duration) (deadline : Time)
  | redisSetNX (key value : String) (ttl : Duration)
  | redisTTL (key : String)
  | mget (keys : List String) (deadline : Time)
  | produce (message : Message)
  | put (path : String)
  | asyncDelete (path : String)

@[reducible] def Reply : Cmd → Type
  | .clock => Time
  | .newUUID => Except Unit UUID
  | .opaqueToken => Except Unit String
  | .bcrypt _ => Except Unit String
  | .select _ => Except SqlError (List Row)
  | .openTx => Except SqlError Unit
  | .lock _ => Except SqlError (List Row)
  | .update _ _ => Except SqlError (List Row)
  | .insert _ => Except SqlError Row
  | .commit => Except SqlError Unit
  | .rollback => Unit
  | .sign _ _ => Except Unit Unit
  | .verify _ => Bool
  | .redisSet _ _ _ _ => Except Unit Unit
  | .redisSetNX _ _ _ => Except Unit Bool
  | .redisTTL _ => Except Unit Duration
  | .mget _ _ => Except Unit (List (Option String))
  | .produce _ => Except Unit Unit
  | .put _ => Except Unit Unit
  | .asyncDelete _ => Unit

-- History only: no command but `verify` reads it, and that one only the
-- signatures that were made.
inductive Event where
  | clock (time : Time)
  | uuid (id : UUID)
  | token (raw : String)
  | selected (position : Nat) (rows : List Row)
  | committed
  | unconfirmed
  | signed (signedAt : Time) (token : AccessToken)
  | marked (key value : String)
  | fetched (time : Time) (values : List (Option String))
  | redisFailed
  | stored (path : String)
  | discarded (path : String)
  deriving DecidableEq, Repr

structure World where
  db : Store Row Key
  markers : String → Option (String × Time)
  outbox : List Message
  objects : List String
  deletions : List String
  uuids : List UUID
  tokens : List String
  requests : Pid → Option Request
  journal : List (Pid × Event)

-- `fails`: no effect and an error; `lost`: the effect, but an error all the
-- same; `value` is what a random source gives; `plan` starts a statement with
-- the order in which it will visit its rows, `next` visits one.
inductive Choice where
  | runs
  | lost
  | fails
  | violates (constraint : String)
  | value (text : String)
  | plan (order : List Key)
  | next
  deriving DecidableEq, Repr

inductive Surroundings where
  | tick (elapsed : Nat)
  | deleted (path : String)
  deriving DecidableEq, Repr

namespace World

def note (w : World) (pid : Pid) (event : Event) : World :=
  {w with journal := (pid,event) :: w.journal}

def committed (w : World) : List Row := w.db.committed schema

-- A marker is gone once its TTL has run out.
def marker (w : World) (key : String) : Option String := match w.markers key with
  | some (value,expiry) => if w.db.now < expiry then some value else none
  | none => none

def setMarker (w : World) (key value : String) (ttl : Duration) : World :=
  {w with markers := Function.update w.markers key (some (value,w.db.now+ttl))}

-- An SQL error aborts the transaction at once.
def abort (w : World) (pid : Pid) : World := {w with db := w.db.rollback pid}

-- Whether a committed row (or one of its own) refuses the version a statement is
-- about to write.
def refuses (w : World) (t : Tx Row Key) (version : Row) (constraint : String) : Bool :=
  (w.db.visible schema t).any fun old =>
    old.key ≠ version.key && old.violation version = some constraint

def refusesInsert (w : World) (pid : Pid) (make : Time → Nat → Row) (constraint : String) : Bool :=
  (w.db.txs pid).any fun t => w.refuses t (make t.began w.db.serial) constraint

def refusesUpdate (w : World) (pid : Pid) (set : Time → Row → Row) (constraint : String) : Bool :=
  (w.db.txs pid).any fun t => t.scan.any fun scan => scan.rest.head?.any fun k =>
    (w.db.visible schema t).any fun row =>
      row.key = k && scan.test row && w.refuses t (set t.began row) constraint

-- The rows a statement gives back, an UPDATE .. RETURNING as rewritten.
def returning (change : Option (Time → Row → Row)) (began : Time) (hits : List Row) : List Row :=
  match change with
  | none => hits
  | some f => hits.map (f began)

def statement (w : World) (pid : Pid) (test : Row → Bool) (change : Option (Time → Row → Row)) :
    Choice → Option (World × Option (Except SqlError (List Row)))
  | .plan order => (w.db.start schema pid test order).map fun db => ({w with db := db},none)
  | .next => (w.db.txs pid).bind fun t =>
      (w.db.visit schema pid (change.map (· t.began))).map fun db => ({w with db := db},none)
  | .runs => (w.db.txs pid).bind fun t => (w.db.finish pid).map fun done =>
      ({w with db := done.1},some (.ok (returning change t.began done.2)))
  | .violates constraint =>
      if change.any (w.refusesUpdate pid · constraint) then
        some (w.abort pid,some (.error (.unique constraint)))
      else none
  | .fails => some (w.abort pid,some (.error .other))
  | _ => none

end World

-- What a command does for one goroutine, if it can run at all here.
def exec (cfg : Config) (w : World) (pid : Pid) :
    (c : Cmd) → Choice → Option (World × Option (Reply c))
  | .clock,.runs => some (w.note pid (.clock w.db.now),some w.db.now)
  | .newUUID,.value id =>
      if id ∈ w.uuids ∨ id = uuidNil then none else
        some ({w with uuids := id :: w.uuids}.note pid (.uuid id),some (.ok id))
  | .newUUID,.fails => some (w,some (.error ()))
  | .opaqueToken,.value raw =>
      if raw ∈ w.tokens then none else
        some ({w with tokens := raw :: w.tokens}.note pid (.token raw),some (.ok raw))
  | .opaqueToken,.fails => some (w,some (.error ()))
  | .bcrypt plain,.value hash =>
      if plain.utf8ByteSize ≤ 72 ∧ cfg.compareHashAndPassword hash plain then
        some (w,some (.ok hash))
      else none
  | .bcrypt _,.fails => some (w,some (.error ()))
  | .select test,.runs =>
      let rows := w.db.select schema test
      some (w.note pid (.selected w.db.log.length rows),some (.ok rows))
  | .select _,.fails => some (w,some (.error .other))
  | .openTx,.runs => (w.db.openTx pid).map fun db => ({w with db := db},some (.ok ()))
  | .openTx,.fails => some (w,some (.error .other))
  | .lock test,choice => w.statement pid test none choice
  | .update test set,choice => w.statement pid test (some set) choice
  | .insert make,.runs => (w.db.txs pid).bind fun t =>
      (w.db.insert schema pid (make t.began)).map fun done =>
        ({w with db := done.1},some (.ok done.2))
  | .insert make,.violates constraint =>
      if w.refusesInsert pid make constraint then
        some (w.abort pid,some (.error (.unique constraint)))
      else none
  | .insert _,.fails => some (w.abort pid,some (.error .other))
  | .commit,.runs =>
      (w.db.commit pid).map fun db => ({w with db := db}.note pid .committed,some (.ok ()))
  | .commit,.lost => (w.db.commit pid).map fun db =>
      (({w with db := db}.note pid .committed).note pid .unconfirmed,some (.error .other))
  | .commit,.fails => some (w.abort pid,some (.error .other))
  | .rollback,.runs => some (w.abort pid,some ())
  | .sign signedAt token,.runs => some (w.note pid (.signed signedAt token),some (.ok ()))
  | .sign _ _,.fails => some (w,some (.error ()))
  | .verify token,.runs => some (w,some (w.journal.any fun entry => match entry.2 with
      | .signed _ made => made = token
      | _ => false))
  -- Redis runs a SET before the deadline of its context or not at all, also where
  -- the caller is not told.
  | .redisSet key value ttl deadline,.runs =>
      if w.db.now ≤ deadline then
        some ((w.setMarker key value ttl).note pid (.marked key value),some (.ok ()))
      else none
  | .redisSet key value ttl deadline,.lost =>
      if w.db.now ≤ deadline then
        some (((w.setMarker key value ttl).note pid (.marked key value)).note pid .redisFailed,
          some (.error ()))
      else none
  | .redisSet _ _ _ _,.fails => some (w.note pid .redisFailed,some (.error ()))
  | .redisSetNX key value ttl,.runs => match w.marker key with
      | some _ => some (w,some (.ok false))
      | none => some (w.setMarker key value ttl,some (.ok true))
  | .redisSetNX _ _ _,.fails => some (w,some (.error ()))
  | .redisTTL key,.runs => some (w,some (.ok (match w.markers key with
      | some (_,expiry) => expiry-w.db.now
      | none => -1)))
  | .redisTTL _,.fails => some (w,some (.error ()))
  | .mget keys deadline,.runs =>
      let values := keys.map w.marker
      if w.db.now ≤ deadline then
        some (w.note pid (.fetched w.db.now values),some (.ok values))
      else none
  | .mget _ _,.fails => some (w.note pid .redisFailed,some (.error ()))
  | .produce message,.runs => some ({w with outbox := message :: w.outbox},some (.ok ()))
  | .produce message,.lost => some ({w with outbox := message :: w.outbox},some (.error ()))
  | .produce _,.fails => some (w,some (.error ()))
  | .put path,.runs =>
      some ({w with objects := path :: w.objects}.note pid (.stored path),some (.ok ()))
  | .put _,.fails => some (w,some (.error ()))
  | .asyncDelete path,.runs =>
      some ({w with deletions := path :: w.deletions}.note pid (.discarded path),some ())
  | _,_ => none

def accept (w : World) (pid : Pid) (request : Request) : Option World := match w.requests pid with
  | some _ => none
  | none => some {w with requests := Function.update w.requests pid (some request)}

-- A background deletion runs at any time after it was issued.
def surroundings (w : World) : Surroundings → Option World
  | .tick elapsed => some {w with db := w.db.tick elapsed}
  | .deleted path =>
      if path ∈ w.deletions then some {w with objects := w.objects.filter (· ≠ path)} else none

def World.start (base : List Row) (serial : Nat) (uuids : List UUID) (now : Time) : World :=
  ⟨⟨base,[],fun _ => none,[],serial,now⟩,fun _ => none,[],[],[],uuids,[],fun _ => none,[]⟩

end RestApi
