import RestApi.WorldValid

namespace RestApi
open Pool Program RowStore Service

section Commits

-- A row locked for the check of its validity, and when that check read the clock.
def CheckedAt (t : Tx Row Key) (events : List Event) (row : Row) (time : Time) : Prop :=
  .clock time ∈ events ∧ ∃ stamp, (row,stamp) ∈ t.locked ∧ stamp ≤ time

-- What each request commits: the rows it had locked, the checks that passed and
-- everything it writes, newest first.
inductive Commits (cfg : Config) : Request → Tx Row Key → List Event → Prop where
  | register (permitted : cfg.internalMode = true → require cfg ctx .registerUser = .done ())
      (looked : Scanned schema (liveUser fun u => u.email = email) t looking)
      (nobody : looking.hits = []) (revoked : Scanned schema (outstandingFor email) t revoking)
      (minted : .token raw ∈ events) (fresh : ¬t.holds schema (.registration serial))
      (unheld : ¬t.holds schema (.audit entry))
      (writes : t.writes = .audit (auditEntry ctx ⟨.register,"registration_token",toString serial,
        none,some (.registrationToken ⟨serial,name,email,cfg.hashStr ("regt_" ++ raw),created,
        created+cfg.registrationTokenTTL,none,none⟩),[]⟩ t.began entry) :: .registration
        ⟨serial,name,email,cfg.hashStr ("regt_" ++ raw),created,created+cfg.registrationTokenTTL,
        none,none⟩ :: revoking.hits.map (supersede t.began)) :
      Commits cfg (.register ctx name email) t events
  | completeRegistration (checked : CheckedAt t events (.registration token) checkedAt)
      (hash : token.tokenHash = cfg.hashStr text) (valid : token.isValid checkedAt = true)
      (drawn : .uuid made ∈ events) (verifies : cfg.compareHashAndPassword digest password = true)
      (user : u = ⟨made,token.name,token.email,some verified,digest,none,none,.user,none,t.began,
        t.began⟩) (fresh : ¬t.holds schema (.user made)) (unheld : ¬t.holds schema (.audit entry))
      (writes : t.writes = [.audit (auditEntry ctx ⟨.completeRegistration,"user",made,none,
        some (.user u),[]⟩ t.began entry),.user ⟨u,none⟩,
        .registration {token with usedAt := some used}]) :
      Commits cfg (.completeRegistration ctx text password) t events
  | login (found : .selected position [.user ⟨usr,none⟩] ∈ events) (email : usr.email = address)
      (verified : cfg.compareHashAndPassword usr.password password = true)
      (drawn : .uuid made ∈ events) (minted : .token raw ∈ events) (unlocked : t.locked = [])
      (unheld : ¬t.holds schema (.audit entry))
      (writes : t.writes = [.audit (auditEntry ctx ⟨.login,"user",usr.id,none,none,
        [("session_id",made)]⟩ t.began entry),.session ⟨made,usr.id,cfg.hashStr ("rt_" ++ raw),ip,
        agent,created,t.began,created+cfg.sessionTTL,none⟩]) :
      Commits cfg (.login ctx address password) t events
  | refreshAccessToken (checked : CheckedAt t events (.session sess) checkedAt)
      (hash : sess.refreshTokenHash = cfg.hashStr text)
      (unexpired : sess.isExpired checkedAt = false)
      (unrevoked : sess.revokedAt = none) (live : .user ⟨usr,none⟩ ∈ t.seen)
      (owner : usr.id = sess.userID)
      (minted : .token raw ∈ events)
      (writes : t.writes = [.session {sess with
        refreshTokenHash := cfg.hashStr ("rt_" ++ raw),accessedAt := accessed,
        ipAddr := ip,userAgent := agent}]) :
      Commits cfg (.refreshAccessToken ctx text) t events
  | logoutDead (checked : CheckedAt t events (.session sess) checkedAt) (same : sess.id = sessID)
      (dead : sess.isExpired checkedAt = true ∨ sess.revokedAt.isSome = true)
      (writes : t.writes = []) : Commits cfg (.logout ctx sessID) t events
  | logout (checked : CheckedAt t events (.session sess) checkedAt) (same : sess.id = sessID)
      (unheld : ¬t.holds schema (.audit entry))
      (writes : t.writes = [.audit (auditEntry ctx ⟨.logout,"user",sess.userID,none,none,
        [("session_id",sessID)]⟩ t.began entry),.session (sess.revoke revokedAt)]) :
      Commits cfg (.logout ctx sessID) t events
  | revokeSessionDead (checked : CheckedAt t events (.session sess) checkedAt)
      (same : sess.id = sessID)
      (permitted : requireSelfOr cfg ctx sess.userID .revokeUserSessions = .done ())
      (dead : sess.isExpired checkedAt = true ∨ sess.revokedAt.isSome = true)
      (writes : t.writes = []) : Commits cfg (.revokeSession ctx sessID) t events
  | revokeSession (checked : CheckedAt t events (.session sess) checkedAt) (same : sess.id = sessID)
      (permitted : requireSelfOr cfg ctx sess.userID .revokeUserSessions = .done ())
      (unheld : ¬t.holds schema (.audit entry))
      (writes : t.writes =
        [.audit (auditEntry ctx ⟨.revokeSession,"session",sessID,none,none,[]⟩ t.began entry),
          .session (sess.revoke revokedAt)]) :
      Commits cfg (.revokeSession ctx sessID) t events
  | recoverPassword (live : .user ⟨usr,none⟩ ∈ t.seen) (email : usr.email = address)
      (minted : .token raw ∈ events) (fresh : ¬t.holds schema (.recovery serial))
      (unheld : ¬t.holds schema (.audit entry))
      (writes : t.writes = [.audit (auditEntry ctx ⟨.recoverPassword,"user",usr.id,none,none,
        []⟩ t.began entry),.recovery ⟨serial,usr.id,cfg.hashStr raw,issued,
        issued+cfg.passwordRecoveryTokenTTL,none⟩]) :
      Commits cfg (.recoverPassword ctx address) t events
  | resetPassword (looked : Scanned schema (recoveryWithHash (cfg.hashStr text)) t looking)
      (single : looking.hits = [.recovery token])
      (checked : CheckedAt t events (.recovery token) checkedAt)
      (hash : token.tokenHash = cfg.hashStr text) (unexpired : token.expired checkedAt = false)
      (unused : token.usedAt = none) (live : .user ⟨usr,none⟩ ∈ t.seen)
      (owner : usr.id = token.userID) (short : password.utf8ByteSize ≤ 72)
      (verifies : cfg.compareHashAndPassword digest password = true) (heard : .clock used ∈ events)
      (revoked : Scanned schema (activeSessionOf usr.id) t revoking)
      (last : t.done.head? = some revoking) (unheld : ¬t.holds schema (.audit entry))
      (writes : t.writes = .audit (auditEntry ctx ⟨.resetPassword,"user",usr.id,none,none,
        []⟩ t.began entry) :: (revoking.hits.map (revokeRow t.began) ++
        [.user ⟨{usr with password := digest,updatedAt := t.began},none⟩,
        .recovery {token with usedAt := some used}])) :
      Commits cfg (.resetPassword ctx text password) t events
  | changePassword (permitted : requireSelfOr cfg ctx userID .changePassword = .done ())
      (found : .selected position [.user ⟨usr,none⟩] ∈ events) (same : usr.id = userID)
      (verified : cfg.compareHashAndPassword usr.password password = true)
      (short : newPassword.utf8ByteSize ≤ 72)
      (verifies : cfg.compareHashAndPassword digest newPassword = true)
      (locked : .user old ∈ t.seen) (target : old.user.id = userID)
      (revoked : Scanned schema (activeSessionOf userID) t revoking)
      (last : t.done.head? = some revoking) (unheld : ¬t.holds schema (.audit entry))
      (writes : t.writes = .audit (auditEntry ctx ⟨.changePassword,"user",userID,none,none,
        []⟩ t.began entry) :: (revoking.hits.map (revokeRow t.began) ++
        [rewriteUser {usr with password := digest} t.began (.user old)])) :
      Commits cfg (.changePassword ctx userID password newPassword) t events
  | revokeUserSessions (permitted : require cfg ctx .revokeUserSessions = .done ())
      (revoked : Scanned schema (activeSessionOf userID) t revoking)
      (unheld : ¬t.holds schema (.audit entry))
      (writes : t.writes = .audit (auditEntry ctx ⟨.revokeUserSessions,"user",userID,none,none,
        []⟩ t.began entry) :: revoking.hits.map (revokeRow t.began)) :
      Commits cfg (.revokeUserSessions ctx userID) t events
  | updateUser (permitted : requireSelfOr cfg ctx userID .userUpdate = .done ())
      (live : .user ⟨prev,none⟩ ∈ t.seen) (same : prev.id = userID)
      (changed : usr = {prev with
        name := name,phone := setNullable phone,gender := setNullable (cfg.toUpper gender)})
      (valid : User.validate cfg usr = .ok ()) (unheld : ¬t.holds schema (.audit entry))
      (writes : t.writes = [.audit (auditEntry ctx ⟨.userUpdate,"user",userID,some (.user prev),
        some (.user {usr with updatedAt := t.began}),[]⟩ t.began entry),
        .user ⟨{usr with updatedAt := t.began},none⟩]) :
      Commits cfg (.updateUser ctx userID name phone gender) t events
  | deleteAbsent (permitted : require cfg ctx .userDelete = .done ())
      (looked : Scanned schema (liveUser fun u => u.id = userID) t looking)
      (nobody : looking.hits = []) (writes : t.writes = []) :
      Commits cfg (.deleteUser ctx userID) t events
  | deleteUser (permitted : require cfg ctx .userDelete = .done ())
      (live : .user ⟨usr,none⟩ ∈ t.seen) (same : usr.id = userID)
      (revoked : Scanned schema (activeSessionOf userID) t revoking)
      (last : t.done.head? = some revoking) (unheld : ¬t.holds schema (.audit entry))
      (writes : t.writes = .audit (auditEntry ctx ⟨.userDelete,"user",userID,none,none,
        []⟩ t.began entry) :: (revoking.hits.map (revokeRow t.began) ++ [.user ⟨usr,some t.began⟩]))
      : Commits cfg (.deleteUser ctx userID) t events
  | changeProfilePicture (permitted : requireSelfOr cfg ctx userID .userUpdate = .done ())
      (live : .user ⟨prev,none⟩ ∈ t.seen) (same : prev.id = userID) (drawn : .uuid made ∈ events)
      (stored : .stored (UserService.buildImagePath (made ++ ext)) ∈ events)
      (changed : usr = {prev with profilePicture := setNullable (made ++ ext)})
      (unheld : ¬t.holds schema (.audit entry))
      (writes : t.writes =
        [.audit (auditEntry ctx ⟨.changeProfilePicture,"user",userID,some (.user prev),
          some (.user {usr with updatedAt := t.began}),[]⟩ t.began entry),
          .user ⟨{usr with updatedAt := t.began},none⟩]) :
      Commits cfg (.changeProfilePicture ctx userID ext) t events
  | keepNoPicture (permitted : requireSelfOr cfg ctx userID .userUpdate = .done ())
      (live : .user ⟨prev,none⟩ ∈ t.seen) (same : prev.id = userID)
      (blank : prev.profilePicture = none) (writes : t.writes = []) :
      Commits cfg (.deleteProfilePicture ctx userID) t events
  | deleteProfilePicture (permitted : requireSelfOr cfg ctx userID .userUpdate = .done ())
      (live : .user ⟨prev,none⟩ ∈ t.seen) (same : prev.id = userID)
      (image : prev.profilePicture = some path) (changed : usr = {prev with profilePicture := none})
      (unheld : ¬t.holds schema (.audit entry))
      (writes : t.writes = [.audit (auditEntry ctx ⟨.deleteProfilePicture,"user",userID,
        some (.user prev),some (.user {usr with updatedAt := t.began}),[]⟩ t.began entry),
        .user ⟨{usr with updatedAt := t.began},none⟩]) :
      Commits cfg (.deleteProfilePicture ctx userID) t events

end Commits

section Locks

-- The order in which most requests go through the tables.
def Key.level : Key → Nat
  | .registration _ => 0
  | .recovery _ => 0
  | .user _ => 1
  | .session _ => 2
  | .audit _ => 3

-- Visited by the statement that is running now.
def Current (t : Tx Row Key) (k : Key) : Prop :=
  ∃ scan, t.scan = some scan ∧ k ∈ schema.keys (scan.hits ++ scan.misses)

-- What a transaction that goes for the lock of one more row holds already.
def Climbs (request : Request) (t : Tx Row Key) (k : Key) : Prop := match request with
  | .register _ _ _ => True
  | .completeRegistration _ _ _ => True
  | .recoverPassword _ _ => True
  | .refreshAccessToken _ _ => (∀ lock ∈ t.locked, lock.1.key.level = 2) ∧
      ((k.level = 2 ∧ ∀ lock ∈ t.locked, Current t lock.1.key) ∨ ∃ sess, .session sess ∈ t.seen ∧
        k = .user sess.userID)
  | .changePassword _ _ _ _ =>
      ∀ lock ∈ t.locked, lock.1.key.level < k.level ∨ lock.1.key.level = k.level ∧
        Current t lock.1.key
  | .resetPassword _ _ _ =>
      ∀ lock ∈ t.locked, lock.1.key.level < k.level ∨ lock.1.key.level = k.level ∧
        Current t lock.1.key
  | .deleteUser _ _ =>
      ∀ lock ∈ t.locked, lock.1.key.level < k.level ∨ lock.1.key.level = k.level ∧
        Current t lock.1.key
  | .revokeUserSessions _ _ =>
      k.level = 2 ∧ ∀ lock ∈ t.locked, lock.1.key.level = 2 ∧ Current t lock.1.key
  | _ => t.locked = []

def Orderly (request : Request) (t : Tx Row Key) : Prop :=
  ∀ scan k rest, t.scan = some scan → scan.rest = k :: rest → ¬t.holds schema k → Climbs request t k

end Locks

section Duties
variable (cfg : Config)

-- A login signs for the session it has not stored yet, a refresh under the lock
-- of a session it has found alive.
def Signs (request : Request) (v : View) (signedAt : Time) (token : AccessToken) : Prop :=
  .clock signedAt ∈ v.events ∧ (∃ userID role,
    token = accessToken cfg userID token.sessionID role signedAt) ∧
    match request with
    | .login _ _ _ => v.tx = none ∧ .committed ∉ v.events ∧ .uuid token.sessionID ∈ v.events
    | .refreshAccessToken _ _ =>
        ∃ t sess checkedAt, v.tx = some t ∧ CheckedAt t v.events (.session sess) checkedAt ∧
        sess.id = token.sessionID ∧ sess.revokedAt = none ∧ sess.isExpired checkedAt = false
    | _ => False

-- A watermark is a clock reading at most the clean-up timeout old when it lands.
def Watermark (v : View) (userID : UUID) (key value : String) (deadline : Time) : Prop :=
  key = revokedUserKey userID ∧ ∃ w, value = formatInt w ∧ .clock w ∈ v.events ∧
    deadline ≤ w+5*second

def Marks (request : Request) (v : View) (key value : String) (ttl : Duration)
    (deadline : Time) : Prop :=
  ttl = revocationTTL cfg.jwtTTL ∧ .committed ∈ v.events ∧ match request with
    | .logout _ sessID => key = revokedSessionKey sessID ∧ value = "1"
    | .revokeSession _ sessID => key = revokedSessionKey sessID ∧ value = "1"
    | .changePassword _ userID _ _ => Watermark v userID key value deadline
    | .revokeUserSessions _ userID => Watermark v userID key value deadline
    | .deleteUser _ userID => Watermark v userID key value deadline
    | .resetPassword _ _ _ => ∃ userID, Watermark v userID key value deadline
    | _ => False

-- An authentication ends with its revocation check.
def Unanswered (request : Request) (v : View) : Prop := match request with
  | .authenticate _ => ∀ time values, .fetched time values ∉ v.events
  | _ => True

def Asks (request : Request) (v : View) (keys : List String) (deadline : Time) : Prop :=
  match request with
  | .authenticate token => keys = [revokedUserKey token.subject,revokedSessionKey token.sessionID] ∧
      (∃ verifiedAt, .clock verifiedAt ∈ v.events ∧ verifiedAt < token.expiresAt) ∧
      ∃ checkedAt, .clock checkedAt ∈ v.events ∧ deadline = checkedAt+revocationCheckTimeout
  | _ => False

-- An upload goes under a name of its own, before anything is committed.
def Stores (request : Request) (v : View) (path : String) : Prop := match request with
  | .changeProfilePicture _ _ ext =>
      v.made = none ∧ ∃ id, .uuid id ∈ v.events ∧ path = UserService.buildImagePath (id ++ ext)
  | _ => False

-- The user row the goroutine's own transaction had locked.
def Replaced (v : View) (userID : UUID) (prev : User) : Prop :=
  ∃ t, v.made = some t ∧ .user ⟨prev,none⟩ ∈ t.seen ∧ prev.id = userID

-- Only two images are ever discarded: the one a commit has replaced, and an
-- upload whose commit went wrong.
def Discards (request : Request) (v : View) (path : String) : Prop := match request with
  | .changeProfilePicture _ userID ext =>
      (∃ prev image, Replaced v userID prev ∧ prev.profilePicture = some image ∧
        path = UserService.buildImagePath image) ∨ (v.made = none ∨ .unconfirmed ∈ v.events) ∧
        ∃ id, .uuid id ∈ v.events ∧ path = UserService.buildImagePath (id ++ ext)
  | .deleteProfilePicture _ userID =>
      ∃ prev image, Replaced v userID prev ∧ prev.profilePicture = some image ∧
        path = UserService.buildImagePath image
  | _ => False

def Owed (request : Request) (v : View) (c : Cmd) : Prop := Unanswered request v ∧ match c with
  | .newUUID => ∀ id, .uuid id ∉ v.events
  | .opaqueToken => ∀ raw, .token raw ∉ v.events
  | .lock _ => ∀ t, v.tx = some t → Orderly request t
  | .update _ _ => ∀ t, v.tx = some t → Orderly request t
  | .commit =>
      .committed ∉ v.events ∧ (∀ path, .discarded path ∉ v.events) ∧ ∃ t, v.tx = some t ∧
        Commits cfg request t v.events
  | .sign signedAt token => Signs cfg request v signedAt token
  | .redisSet key value ttl deadline => Marks cfg request v key value ttl deadline
  | .redisSetNX key _ _ => ∃ email, key = "throttle:" ++ ("recover-password:" ++ email)
  | .mget keys deadline => Asks request v keys deadline
  | .produce _ => .committed ∈ v.events
  | .put path => Stores request v path
  | .asyncDelete path => Discards request v path
  | _ => True

def verdict (token : AccessToken) (values : List (Option String)) : Except Err Bool :=
  decideRevoked (markerValue values 0) (markerValue values 1) token.issuedAt

-- What a finished request has done, as far as its caller can tell.
def Ends (request : Request) (v : View) (result : Except Err Value) : Prop :=
  match request,result with
  | .authenticate token,.ok value => value = .claims token ∧
      (.redisFailed ∈ v.events ∨ ∃ time values, .fetched time values ∈ v.events ∧
        verdict token values ≠ .ok true)
  | .authenticate token,.error _ =>
      ∀ time values, .fetched time values ∈ v.events → verdict token values ≠ .ok false
  | .login _ _ _,.ok value => .committed ∈ v.events ∧
      ∃ token raw, value = .tokenPair token ("rt_" ++ raw) ∧ .token raw ∈ v.events
  | .refreshAccessToken _ _,.ok value => .committed ∈ v.events ∧
      ∃ token raw, value = .tokenPair token ("rt_" ++ raw) ∧ .token raw ∈ v.events
  | .logout _ sessID,.ok _ => .committed ∈ v.events ∧
      (.marked (revokedSessionKey sessID) "1" ∈ v.events ∨ .redisFailed ∈ v.events ∨ cfg.jwtTTL ≤ 0)
  | .revokeSession _ sessID,.ok _ => .committed ∈ v.events ∧
      (.marked (revokedSessionKey sessID) "1" ∈ v.events ∨ .redisFailed ∈ v.events ∨ cfg.jwtTTL ≤ 0)
  | .deleteUser _ userID,.ok _ => .committed ∈ v.events ∧
      (cfg.jwtTTL ≤ 0 ∨ ∃ w, .clock w ∈ v.events ∧
        .marked (revokedUserKey userID) (formatInt w) ∈ v.events)
  | .changeProfilePicture _ userID _,.ok _ =>
      .committed ∈ v.events ∧ ∃ prev, Replaced v userID prev ∧
      ∀ image, prev.profilePicture = some image →
        .discarded (UserService.buildImagePath image) ∈ v.events
  | .changeProfilePicture _ _ _,.error _ => (v.made = none ∨ .unconfirmed ∈ v.events) ∧
      ∀ path, .stored path ∈ v.events → .discarded path ∈ v.events
  | .deleteProfilePicture _ userID,.ok _ => .committed ∈ v.events ∧ ∃ prev, Replaced v userID prev ∧
      ∀ image, prev.profilePicture = some image →
        .discarded (UserService.buildImagePath image) ∈ v.events
  | .deleteProfilePicture _ _,.error _ => v.made = none ∨ .unconfirmed ∈ v.events
  | _,.ok _ => .committed ∈ v.events
  | _,.error _ => True

-- The same for a goroutine, whatever it was asked for.
def duty (v : View) (c : Cmd) : Prop := ∃ request, v.request = some request ∧ Owed cfg request v c
def outcome (v : View) (result : Except Err Value) : Prop :=
  ∃ request, v.request = some request ∧ Ends cfg request v result

end Duties
end RestApi
