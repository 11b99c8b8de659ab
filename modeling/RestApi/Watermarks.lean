import RestApi.History

namespace RestApi.Watermarks
open Pool Program RowStore

section Times

theorem truncateSecond_le (t : Time) : truncateSecond t ≤ t := by
  have part : 0 ≤ t%second := Int.emod_nonneg t (by decide)
  exact Int.sub_le_self t part

theorem lt_truncateSecond (t : Time) : t-second < truncateSecond t := by
  have part : t%second < second := Int.emod_lt_of_pos t (by decide)
  exact Int.sub_lt_sub_left part t

end Times

section Signatures
variable {cfg : Config} {token : AccessToken}

-- A signed token says when it was signed, cut to the second.
def Stamped (cfg : Config) (token : AccessToken) (signedAt : Time) : Prop :=
  ∃ userID role, token = accessToken cfg userID token.sessionID role signedAt

theorem Stamped.issued (stamped : Stamped cfg token signedAt) :
    token.issuedAt ≤ signedAt ∧ signedAt-second < token.issuedAt := by
  obtain ⟨userID,role,same⟩ := stamped
  rw [same]
  exact ⟨truncateSecond_le signedAt,lt_truncateSecond signedAt⟩

theorem Stamped.expires (stamped : Stamped cfg token signedAt) :
    token.expiresAt ≤ signedAt+cfg.jwtTTL := by
  obtain ⟨userID,role,same⟩ := stamped
  rw [same]
  exact truncateSecond_le _

theorem reached_stamped {base : List Row} {s : Api} (keyed : schema.Keyed base)
    (apart : schema.Apart base) (path : Reached (api cfg) allow (boot base serial uuids now) s) :
    ∀ pid signedAt token, (pid,.signed signedAt token) ∈ s.shared.journal →
      Stamped cfg token signedAt ∧ (pid,.clock signedAt) ∈ s.shared.journal := by
  have noted := reached_noted (fun w pid event => ∀ signedAt token, event = .signed signedAt token →
    Stamped cfg token signedAt ∧ (pid,.clock signedAt) ∈ w.journal) keyed apart ?stays ?owed path
  · exact fun pid signedAt token signed => noted pid _ signed signedAt token rfl
  · intro w after pid event grows good signedAt token same
    obtain ⟨stamped,heard⟩ := good signedAt token same
    exact ⟨stamped,grows.journal heard⟩
  · intro s pid c event _ _ owed notes signedAt token same
    subst same
    cases notes
    obtain ⟨request,_,_,heard,stamped,_⟩ := owed
    exact ⟨stamped,mem_own.mp heard⟩

end Signatures

section Markers
variable {cfg : Config} {userID : UUID} {w after : World}

-- The marker of a user is the last watermark to arrive. It arrived no later
-- than five seconds after its clock was read, and no watermark before it was
-- read any later than that arrival.
def Landed (cfg : Config) (userID : UUID) (w : World) (value : String) (expiry : Time) : Prop :=
  ∃ pid read landing, value = formatInt read ∧
    (pid,.marked (revokedUserKey userID) value) ∈ w.journal ∧
    expiry = landing+revocationTTL cfg.jwtTTL ∧ landing ≤ read+5*second ∧
    ∀ other earlier, (other,.marked (revokedUserKey userID) (formatInt earlier)) ∈ w.journal →
    earlier ≤ landing

def Watermarked (cfg : Config) (userID : UUID) (w : World) : Prop :=
  (∀ pid value, (pid,.marked (revokedUserKey userID) value) ∈ w.journal →
    w.markers (revokedUserKey userID) ≠ none) ∧
    ∀ value expiry, w.markers (revokedUserKey userID) = some (value,expiry) →
    Landed cfg userID w value expiry

-- Nothing but a landing watermark touches the marker.
theorem marks_watermark
    (owed : duty cfg (w.view pid) (.redisSet (revokedUserKey userID) value ttl deadline)) :
    ttl = revocationTTL cfg.jwtTTL ∧ ∃ read, value = formatInt read ∧
      (pid,.clock read) ∈ w.journal ∧ deadline ≤ read+5*second := by
  obtain ⟨request,_,_,same,_,marks⟩ := owed
  refine ⟨same,?_⟩
  have watermark {target : UUID}
      (mark : Watermark (w.view pid) target (revokedUserKey userID) value deadline) :
      ∃ read, value = formatInt read ∧ (pid,.clock read) ∈ w.journal ∧
      deadline ≤ read+5*second := by
    obtain ⟨_,read,text,heard,early⟩ := mark
    exact ⟨read,text,mem_own.mp heard,early⟩
  cases request with
  | logout ctx sessID => exact absurd marks.1 (user_not_session userID sessID)
  | revokeSession ctx sessID => exact absurd marks.1 (user_not_session userID sessID)
  | changePassword ctx target _ _ => exact watermark marks
  | revokeUserSessions ctx target => exact watermark marks
  | deleteUser ctx target => exact watermark marks
  | resetPassword _ _ _ =>
      obtain ⟨target,mark⟩ := marks
      exact watermark mark
  | _ => cases marks

theorem throttles_elsewhere (owed : duty cfg (w.view pid) (.redisSetNX key value ttl)) :
    key ≠ revokedUserKey userID := by
  obtain ⟨request,_,_,email,rfl⟩ := owed
  exact throttle_not_user _ userID

-- What a watermark was read from was heard, so it is not ahead of the clock.
def Heard (w : World) (pid : Pid) (event : Event) : Prop :=
  ∀ userID value, event = .marked (revokedUserKey userID) value → ∃ read, value = formatInt read ∧
    (pid,.clock read) ∈ w.journal

theorem reached_heard {base : List Row} {s : Api} (keyed : schema.Keyed base)
    (apart : schema.Apart base) (path : Reached (api cfg) allow (boot base serial uuids now) s) :
    ∀ pid event, (pid,event) ∈ s.shared.journal → Heard s.shared pid event := by
  refine reached_noted Heard keyed apart (fun grows good userID value same => ?_) ?_ path
  · obtain ⟨read,text,heard⟩ := good userID value same
    exact ⟨read,text,grows.journal heard⟩
  · intro s pid c event _ _ owed notes userID value same
    subst same
    cases notes
    obtain ⟨_,read,text,heard,_⟩ := marks_watermark owed
    exact ⟨read,text,heard⟩

theorem notes_mark (notes : Notes w (.redisSet key value ttl deadline) (.marked key other)) :
    other = value := by
  cases notes
  rfl

theorem executed_watermarked {c : Cmd} {reply : Option (Reply c)} (valid : WorldValid w)
    (heard : ∀ pid event, (pid,event) ∈ w.journal → Heard w pid event)
    (owed : duty cfg (w.view pid) c) (done : Executed cfg w pid c reply after)
    (marked : Watermarked cfg userID w) : Watermarked cfg userID after := by
  rcases executed_marker (revokedUserKey userID) done with ⟨value,ttl,deadline,rfl,timely,written,
    noted⟩ | ⟨_,_,rfl⟩ | ⟨same,quiet⟩
  · obtain ⟨rfl,read,rfl,clock,early⟩ := marks_watermark owed
    refine ⟨fun _ _ _ blank => (nomatch written.symm.trans blank),fun value expiry there => ?_⟩
    cases written.symm.trans there
    refine ⟨pid,read,w.db.now,rfl,noted,rfl,Int.le_trans timely early,
      fun other earlier before => ?_⟩
    -- Whatever was marked before, or just now, was read from the clock.
    rcases executed_noted done before with old | ⟨rfl,notes⟩
    · obtain ⟨read',text,clock'⟩ := heard other _ old userID _ rfl
      cases formatInt_injective text
      exact valid.clocks other earlier clock'
    · cases formatInt_injective (notes_mark notes)
      exact valid.clocks other read clock
  · exact absurd rfl (throttles_elsewhere owed)
  · rw [Watermarked,same]
    refine ⟨fun pid value noted => marked.1 pid value (quiet pid value noted),
      fun value expiry there => ?_⟩
    obtain ⟨pid,read,landing,text,noted,rest,early,last⟩ := marked.2 value expiry there
    exact ⟨pid,read,landing,text,(executed_grows done).journal noted,rest,early,
      fun other earlier noted => last other earlier (quiet _ _ noted)⟩

theorem reached_watermarked {base : List Row} {s : Api} (keyed : schema.Keyed base)
    (apart : schema.Apart base) (path : Reached (api cfg) allow (boot base serial uuids now) s) :
    Watermarked cfg userID s.shared := by
  have start : Watermarked cfg userID (boot base serial uuids now).shared :=
    ⟨fun _ _ absent => (List.not_mem_nil absent).elim,nofun⟩
  refine reached_world (Watermarked cfg userID) start
    (fun {s act after} prior marked _ turns => ?_) path
  cases turns with
  | executed here ran =>
      obtain ⟨valid,meets⟩ := reached_contract keyed apart prior
      exact executed_watermarked valid (reached_heard keyed apart prior)
        (meets_duty (meets _ _ here)) (exec_executed ran) marked
  | _ => exact marked

end Markers

section Checks
variable {cfg : Config} {token : AccessToken}

-- A step in which an authentication, its token verified, gets its markers.
def Checks (cfg : Config) (m : Api) (pid : Pid) (token : AccessToken)
    (values : List (Option String)) : Prop :=
  m.shared.requests pid = some (.authenticate token) ∧ ∃ choice time next,
    advance (api cfg) m (.step pid choice) = some next ∧
    next.shared.journal = (pid,.fetched time values) :: m.shared.journal

-- It gets the markers of its token.
theorem fetched_parts {base : List Row} {m next : Api} (keyed : schema.Keyed base)
    (apart : schema.Apart base) (path : Reached (api cfg) allow (boot base serial uuids now) m)
    (asked : m.shared.requests pid = some (.authenticate token))
    (advanced : advance (api cfg) m (.step pid choice) = some next)
    (fetched : (pid,.fetched time values) ∈ next.shared.journal) :
    values = [revokedUserKey token.subject,
      revokedSessionKey token.sessionID].map m.shared.marker := by
  have asks {c reply} (owed : duty cfg (m.shared.view pid) c)
      (done : Executed cfg m.shared pid c reply next.shared) :
      values = [revokedUserKey token.subject,
      revokedSessionKey token.sessionID].map m.shared.marker := by
    obtain ⟨request,same,unanswered,rest⟩ := owed
    cases same.symm.trans asked
    rcases executed_noted done fetched with old | ⟨_,notes⟩
    · exact absurd (mem_own.mpr old) (unanswered time values)
    · cases notes with
      | fetched timely =>
          obtain ⟨rfl,_⟩ := rest
          rfl
  have meets := (reached_contract keyed apart path).2
  cases advance_moves advanced with
  | wait here ran => exact asks (meets_duty (meets _ _ here)) (exec_executed ran)
  | reply here ran => exact asks (meets_duty (meets _ _ here)) (exec_executed ran)

-- A watermark that has not expired decides by itself, unless the session is revoked.
theorem decide_watermark (read : Int) (sessionMarker : String) (issuedAt : Time) :
    decideRevoked (formatInt read) sessionMarker issuedAt = if sessionMarker ≠ "" then .ok true
      else if read ≤ 0 then .error .invalidWatermark else .ok
        (revokedByWatermark issuedAt read) := by
  simp only [decideRevoked,formatInt_ne_empty,parseInt_formatInt,if_false]

theorem verdict_marked {user session : Option String} :
    verdict token [user,session] = decideRevoked (user.getD "")
      (session.getD "") token.issuedAt := by
  cases user <;> cases session <;> rfl

theorem revocationTTL_positive (positive : 0 < cfg.jwtTTL) :
    revocationTTL cfg.jwtTTL = cfg.jwtTTL+5*second := by
  rw [revocationTTL,if_neg (Int.not_le.mpr positive)]
  rfl

end Checks

-- What RevokeAllForUser has come to at `m`, for the watermarks that had arrived by `s`.
structure Exact (cfg : Config) (userID : UUID) (s m : Api) : Prop where
  -- A call that returns nil has landed the watermark it read.
  returns : ∀ deadline v after, Runs (Local cfg) (revokeAllForUser cfg userID deadline) v
    (.ok ()) after → ∃ w, .clock w ∈ after.events ∧
    .marked (revokedUserKey userID) (formatInt w) ∈ after.events
  rejects : ∀ pid w, (pid,.marked (revokedUserKey userID) (formatInt w)) ∈ s.shared.journal →
    ∀ signer signedAt token, (signer,.signed signedAt token) ∈ m.shared.journal →
      token.subject = userID → signedAt ≤ w →
      -- A pause before the check must not outlast the token by five seconds.
      m.shared.db.now < token.expiresAt+revocationSkew →
        ∀ q values, Checks cfg m q token values → verdict token values ≠ .ok false
  spares : ∀ signer signedAt token, (signer,.signed signedAt token) ∈ m.shared.journal →
    token.subject = userID → (∀ pid w, (pid,.marked (revokedUserKey userID)
    (formatInt w)) ∈ m.shared.journal → w+6*second ≤ signedAt) →
    ∀ q values, Checks cfg m q token values → verdict token values = .ok true →
    markerValue values 1 ≠ ""

theorem marker_live {w : World} (there : w.markers key = some (value,expiry))
    (live : w.db.now < expiry) : w.marker key = some value := by
  simp [World.marker,there,live]

theorem marker_some {w : World} (there : w.marker key = some value) :
    ∃ expiry, w.markers key = some (value,expiry) := by
  unfold World.marker at there
  split at there
  · rename_i found expiry same
    obtain ⟨_,rfl⟩ : w.db.now < expiry ∧ found = value := by simpa using there
    exact ⟨expiry,same⟩
  · cases there

theorem revokeAll_returns (positive : 0 < cfg.jwtTTL)
    (ran : Runs (Local cfg) (revokeAllForUser cfg userID deadline) v (.ok ()) after) :
    ∃ w, .clock w ∈ after.events ∧ .marked (revokedUserKey userID)
      (formatInt w) ∈ after.events := by
  have lasting : revocationTTL cfg.jwtTTL ≠ 0 := by
    rw [revocationTTL_positive positive]
    exact Int.ne_of_gt (Int.add_pos positive (by decide))
  rw [revokeAllForUser,if_neg lasting] at ran
  obtain ⟨w,middle,read,set⟩ := runs_bind_parts ran
  cases read with
  | call clock rest =>
      cases clock
      cases rest
      cases set with
      | call stepped rest =>
          cases stepped with
          | marked => cases rest; exact ⟨w,by simp,by simp⟩
          | lostMark => cases rest
          | unmarked => cases rest

section Runs
variable {cfg : Config} {base : List Row} {m : Api}

theorem watermark_rejects (keyed : schema.Keyed base) (apart : schema.Apart base)
    (positive : 0 < cfg.jwtTTL) (path : Reached (api cfg) allow (boot base serial uuids now) m)
    (marked : (pid,.marked (revokedUserKey token.subject) (formatInt w)) ∈ m.shared.journal)
    (signed : (signer,.signed signedAt token) ∈ m.shared.journal) (early : signedAt ≤ w)
    (checks : Checks cfg m q token values)
    (prompt : m.shared.db.now < token.expiresAt+revocationSkew) :
    verdict token values ≠ .ok false := by
  obtain ⟨asked,_,_,_,advanced,journal⟩ := checks
  obtain rfl := fetched_parts keyed apart path asked advanced (journal ▸ List.mem_cons_self)
  obtain ⟨stamped,_⟩ := reached_stamped keyed apart path signer signedAt token signed
  have issued := stamped.issued.1
  have expires := stamped.expires
  obtain ⟨present,landed⟩ : Watermarked cfg token.subject m.shared :=
    reached_watermarked keyed apart path
  obtain ⟨⟨value,expiry⟩,there⟩ := Option.ne_none_iff_exists'.mp (present _ _ marked)
  obtain ⟨_,read,landing,rfl,_,rfl,timely,last⟩ := landed value expiry there
  have before := last _ w marked
  rw [revocationTTL_positive positive] at there
  have live : m.shared.db.now < landing+(cfg.jwtTTL+5*second) := by
    dsimp only [Time,Duration,second,revocationSkew] at *
    omega
  have revoked : revokedByWatermark token.issuedAt read = true := by
    have reached : ¬read+revocationSkew < token.issuedAt := by
      dsimp only [Time,Duration,second,revocationSkew] at *
      omega
    simp [revokedByWatermark,reached]
  simp only [List.map_cons,List.map_nil,verdict_marked,marker_live there live,Option.getD_some,
    decide_watermark,revoked]
  split
  · exact nofun
  · split <;> exact nofun

theorem watermark_spares (keyed : schema.Keyed base) (apart : schema.Apart base)
    (path : Reached (api cfg) allow (boot base serial uuids now) m)
    (signed : (signer,.signed signedAt token) ∈ m.shared.journal)
    (late : ∀ pid w, (pid,.marked (revokedUserKey token.subject) (formatInt w)) ∈ m.shared.journal →
      w+6*second ≤ signedAt) (checks : Checks cfg m q token values)
    (revoked : verdict token values = .ok true) : markerValue values 1 ≠ "" := by
  obtain ⟨asked,_,_,_,advanced,journal⟩ := checks
  obtain rfl := fetched_parts keyed apart path asked advanced (journal ▸ List.mem_cons_self)
  obtain ⟨stamped,_⟩ := reached_stamped keyed apart path signer signedAt token signed
  have issued := stamped.issued.2
  obtain ⟨_,landed⟩ : Watermarked cfg token.subject m.shared := reached_watermarked keyed apart path
  intro blank
  replace blank : (m.shared.marker (revokedSessionKey token.sessionID)).getD "" = "" := blank
  simp only [List.map_cons,List.map_nil,verdict_marked,blank] at revoked
  cases user : m.shared.marker (revokedUserKey token.subject) with
  | none =>
      rw [user] at revoked
      cases revoked
  | some value =>
      obtain ⟨expiry,there⟩ := marker_some user
      obtain ⟨pid,read,landing,rfl,marked,_⟩ := landed value expiry there
      have after := late pid read marked
      have spared : revokedByWatermark token.issuedAt read = false := by
        have reached : read+revocationSkew < token.issuedAt := by
          dsimp only [Time,Duration,second,revocationSkew] at *
          omega
        simp [revokedByWatermark,reached]
      rw [user,Option.getD_some,decide_watermark,spared,if_neg (by simp)] at revoked
      split at revoked <;> cases revoked

end Runs

-- User-wide revocation is exact up to the skew.
theorem watermarks_exact {base : List Row} {s m : Api} (keyed : schema.Keyed base)
    (apart : schema.Apart base) (positive : 0 < cfg.jwtTTL)
    (path : Reached (api cfg) (fun _ _ => True) (boot base serial uuids now) s)
    (onward : Reached (api cfg) (fun _ _ => True) s m) (userID : UUID) : Exact cfg userID s m := by
  have whole := path.trans onward
  refine ⟨fun _ _ _ ran => revokeAll_returns positive ran,?_,?_⟩
  · intro pid w marked signer signedAt token signed subject early prompt q values checks
    subst subject
    exact watermark_rejects keyed apart positive whole
      ((reached_grows onward).journal marked) signed early checks prompt
  · intro signer signedAt token signed subject late q values checks revoked
    subst subject
    exact watermark_spares keyed apart whole signed late checks revoked

namespace Controls
open RestApi.Controls

def revoked : Schedule :=
  [.spawn 1 (.revokeUserSessions asAnn "u1"),.step 1 .runs,.step 1 (.plan [.session "s1"]),
    .step 1 .next,.step 1 .runs,.step 1 .runs,.step 1 .runs,.step 1 .runs,.step 1 .runs,
    .step 1 .runs]

def checking : Schedule := [.spawn 2 (.authenticate pass),.step 2 .runs,.step 2 .runs,.step 2 .runs]

-- The token of a login, a bulk revocation, and a check of that token.
theorem watermarks_exact_revoked : ∃ s, Reached (api config) (fun _ _ => True) init s ∧
    ((0,.signed (1000*second) pass) ∈ s.shared.journal ∧
      (1,.marked (revokedUserKey "u1") (formatInt (1000*second))) ∈ s.shared.journal) ∧
        Exact config "u1" s s := by
  obtain ⟨s,path,found⟩ :=
    run_finds (api config) (fun _ _ => True) init (loggedIn ++ revoked ++ checking)
    (fun s => (0,.signed (1000*second) pass) ∈ s.shared.journal ∧
    (1,.marked (revokedUserKey "u1") (formatInt (1000*second))) ∈ s.shared.journal)
    (by decide +kernel)
  refine ⟨s,path,found,watermarks_exact ?_ ?_ (by decide) path .refl "u1"⟩
  · simp [Schema.Keyed]
  · simp [Schema.Apart]

end Controls
end RestApi.Watermarks
