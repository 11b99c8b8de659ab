import RestApi.ClosedSessions
import RestApi.ServiceContracts

namespace RestApi.FailClosed
open Pool Program RowStore Service Watermarks ClosedSessions

variable {cfg : Config}

-- What a success says about Redis, whatever may have failed on the way.
def Assured (cfg : Config) (request : Request) (v : View) (result : Except Err Value) : Prop :=
  match request,result with
  | .authenticate token,.ok _ => cfg.revocationFailClosed = true →
      ∃ time values, .fetched time values ∈ v.events ∧ verdict token values = .ok false
  | .revokeSession _ sessID,.ok _ =>
      .marked (revokedSessionKey sessID) "1" ∈ v.events ∨ cfg.jwtTTL ≤ 0
  | .revokeUserSessions _ userID,.ok _ =>
      (∃ w, .clock w ∈ v.events ∧ .marked (revokedUserKey userID) (formatInt w) ∈ v.events) ∨
        cfg.jwtTTL ≤ 0
  | .deleteUser _ userID,.ok _ =>
      (∃ w, .clock w ∈ v.events ∧ .marked (revokedUserKey userID) (formatInt w) ∈ v.events) ∨
        cfg.jwtTTL ≤ 0
  | _,_ => True

section Contracts
variable {asked : Option Request} {α : Type}

theorem meets_nothing {Local : View → (c : Cmd) → Option (Reply c) → View → Prop}
    (program : Service α) (v : View) :
    Meets Local (fun _ _ => True) (fun _ _ => True) program v := by
  induction program generalizing v with
  | done value => trivial
  | fail err => trivial
  | call c rest ih => exact fun _ _ => ⟨trivial,fun reply after _ => ih reply after⟩

-- Only the end of the code counts.
theorem meets_end {program : Service α} {next : α → Service Value}
    {post : View → Except Err Value → Prop} {v : View}
    (failed : ∀ after err, post after (.error err))
    (last : ∀ value after, Meets (Local cfg) (fun _ _ => True) post (next value) after) :
    Meets (Local cfg) (fun _ _ => True) post (program.bind next) v := by
  refine meets_bind (meets_mono (fun _ _ owed => owed) (fun after result _ => ?_)
    (meets_nothing program v))
  cases result with
  | ok value => exact last value after
  | error err => exact failed after err

theorem authenticate_assured (token : AccessToken) :
    Meets (Local cfg) (fun _ _ => True) (Assured cfg (.authenticate token))
    (authenticate cfg token) ⟨asked,none,[],none⟩ := by
  refine meets_end (fun _ _ => trivial) fun _ _ => meets_end (fun _ _ => trivial)
    fun checkedAt v => ?_
  refine meets_bind (meets_settle (meets_call (fun _ _ stepped => by cases stepped) trivial
    fun reply after stepped => ?_))
  have refused (here : View) : Meets (Local cfg) (fun _ _ => True)
      (Assured cfg (.authenticate token))
      (if cfg.revocationFailClosed then .fail Err.sessionInvalid else .done
      (Value.claims token)) here := by
    split
    · trivial
    · rename_i fails
      exact fun closed => absurd closed fails
  cases stepped with
  | unfetched => exact refused _
  | @fetched _ _ values time =>
      dsimp only
      cases told : decideRevoked (markerValue values 0) (markerValue values 1) token.issuedAt with
      | error err => exact refused _
      | ok revoked =>
          cases revoked with
          | true => trivial
          | false => exact fun _ => ⟨time,values,List.mem_cons_self,told⟩

theorem revokeAll_assured (userID : UUID) {v : View} {post : View → Except Err Value → Prop}
    (failed : ∀ after err, post after (.error err))
    (assured : ∀ after, ((∃ w, .clock w ∈ after.events ∧
      .marked (revokedUserKey userID) (formatInt w) ∈ after.events) ∨ cfg.jwtTTL ≤ 0) →
      post after (.ok .nil)) :
    Meets (Local cfg) (fun _ _ => True) post
      (cleanupDeadline.bind fun deadline => (revokeAllForUser cfg userID deadline).bind
      fun _ => .done .nil) v := by
  refine meets_end failed fun deadline after =>
    meets_bind (revokeAllForUser_meets (fun _ _ _ => trivial) (fun _ _ _ => failed _ _)
    (fun _ _ => trivial) (fun w => assured _ (.inl ⟨w,by simp,by simp⟩)) fun needless =>
    assured _ (.inr needless))

theorem serve_assured (request : Request) :
    Meets (Local cfg) (fun _ _ => True) (Assured cfg request) (serve cfg request)
      ⟨asked,none,[],none⟩ := by
  cases request with
  | authenticate token => exact authenticate_assured token
  | revokeSession ctx sessionID =>
      refine meets_end (fun _ _ => trivial) fun _ _ => meets_end (fun _ _ => trivial)
        fun deadline after => ?_
      exact meets_bind (revokeSessionMarker_meets (fun _ _ _ _ => trivial) trivial
        (.inl (by simp)) .inr)
  | revokeUserSessions ctx userID =>
      exact meets_end (fun _ _ => trivial) fun _ _ => meets_end (fun _ _ => trivial) fun _ _ =>
        revokeAll_assured userID (fun _ _ => trivial) fun _ known => known
  | deleteUser ctx userID =>
      exact meets_end (fun _ _ => trivial) fun _ _ => meets_end (fun _ _ => trivial) fun _ _ =>
        revokeAll_assured userID (fun _ _ => trivial) fun _ known => known
  | _ =>
      exact meets_mono (fun _ _ owed => owed) (fun _ result _ => by cases result <;> trivial)
        (meets_nothing _ _)

end Contracts

section Runs
variable {base : List Row} {a s m next : Api} {token : AccessToken}

-- An authentication that succeeds in this step has got its markers in it, for a
-- token that had been signed before.
theorem accepted_checks (keyed : schema.Keyed base) (apart : schema.Apart base)
    (closed : cfg.revocationFailClosed = true)
    (path : Reached (api cfg) (fun _ _ => True) (boot base serial uuids started) m)
    (asked : m.shared.requests q = some (.authenticate token))
    (advanced : advance (api cfg) m (.step q choice) = some next)
    (accepted : next.threads q = some (.done value)) :
    ∃ values, Checks cfg m q token values ∧ verdict token values = .ok false ∧
      ∃ signer signedAt, (signer,.signed signedAt token) ∈ m.shared.journal := by
  have moves := advance_moves advanced
  have onward := path.step trivial advanced
  obtain ⟨request,same,assured⟩ :=
    reached_ends (fun request => serve_assured request) keyed apart onward accepted
  cases same.symm.trans ((moves_grows moves).requests _ _ asked)
  obtain ⟨time,values,fetched,clean⟩ := assured closed
  replace fetched := mem_own.mp fetched
  have noted {c : Cmd} {reply : Option (Reply c)} {after : World}
      (owed : duty cfg (m.shared.view q) c) (done : Executed cfg m.shared q c reply after)
      (there : (q,.fetched time values) ∈ after.journal) :
      after.journal = (q,.fetched time values) :: m.shared.journal := by
    obtain ⟨other,known,unanswered,_⟩ := owed
    cases known.symm.trans asked
    have unheard : (q,.fetched time values) ∉ m.shared.journal :=
      fun old => unanswered time values (mem_own.mpr old)
    rcases executed_noted done there with old | ⟨_,notes⟩
    · exact absurd old unheard
    · cases notes
      cases done with
      | fetched _ => rfl
      | unfetched =>
          rcases List.mem_cons.mp there with same | old
          · cases same
          · exact absurd old unheard
  have journal : next.shared.journal = (q,.fetched time values) :: m.shared.journal := by
    have meets := (reached_contract keyed apart path).2
    cases moves with
    | wait here ran => exact noted (meets_duty (meets _ _ here)) (exec_executed ran) fetched
    | reply here ran => exact noted (meets_duty (meets _ _ here)) (exec_executed ran) fetched
  refine ⟨values,⟨asked,choice,time,next,advanced,journal⟩,clean,?_⟩
  rcases reached_verified onward q token _ same accepted with start | ⟨_,failed⟩ |
    ⟨signer,signedAt,signed⟩
  · cases start
  · cases failed
  · rw [journal] at signed
    exact ⟨signer,signedAt,List.mem_of_ne_of_mem (by rintro ⟨⟩) signed⟩

-- The marker of a session rejects every token of the session while one can be verified.
theorem session_rejects (keyed : schema.Keyed base) (apart : schema.Apart base)
    (known : ∀ sess, .session sess ∈ base → sess.id ∈ uuids) (positive : 0 < cfg.jwtTTL)
    (path : Reached (api cfg) (fun _ _ => True) (boot base serial uuids started) m)
    (marked : (pid,.marked (revokedSessionKey token.sessionID) "1") ∈ m.shared.journal)
    (signed : (signer,.signed signedAt token) ∈ m.shared.journal)
    (checks : Checks cfg m q token values)
    (prompt : m.shared.db.now < token.expiresAt+revocationSkew) :
    verdict token values = .ok true := by
  obtain ⟨asked,_,_,_,advanced,journal⟩ := checks
  obtain rfl := fetched_parts keyed apart path asked advanced (journal ▸ List.mem_cons_self)
  obtain ⟨present,lasting⟩ : Blocked cfg token.sessionID m.shared :=
    reached_blocked keyed apart path
  obtain ⟨⟨text,expiry⟩,there⟩ := Option.ne_none_iff_exists'.mp (present _ _ marked)
  obtain ⟨rfl,entry,listed,closes,lasts⟩ := lasting text expiry there
  have before := reached_before keyed apart known path entry listed signer signedAt token
    signed closes
  have expires := (reached_stamped keyed apart path signer signedAt token signed).1.expires
  rw [revocationTTL_positive positive] at lasts
  have live : m.shared.db.now < expiry := by
    dsimp only [Time,Duration,second,revocationSkew] at *
    omega
  simp [verdict_marked,marker_live there live,decideRevoked]

-- The tokens a revocation that starts at `a` is there to cut off.
def Cuts (a : Api) (token : AccessToken) : Request → Prop
  | .revokeSession _ sessID => token.sessionID = sessID
  | .revokeUserSessions _ userID =>
      token.subject = userID ∧ ∃ signer signedAt, (signer,.signed signedAt token) ∈ a.shared.journal
  | .deleteUser _ userID =>
      token.subject = userID ∧ ∃ signer signedAt, (signer,.signed signedAt token) ∈ a.shared.journal
  | _ => False

-- A watermark that a later request has set covers the token.
theorem watermark_cuts (keyed : schema.Keyed base) (apart : schema.Apart base)
    (positive : 0 < cfg.jwtTTL)
    (path : Reached (api cfg) (fun _ _ => True) (boot base serial uuids started) a)
    (fresh : a.shared.requests pid = none) (onward : Reached (api cfg) (fun _ _ => True) a m)
    (signed : (signer,.signed signedAt token) ∈ a.shared.journal)
    (heard : (pid,.clock w) ∈ m.shared.journal)
    (marked : (pid,.marked (revokedUserKey token.subject) (formatInt w)) ∈ m.shared.journal)
    (checks : Checks cfg m q token values)
    (prompt : m.shared.db.now < token.expiresAt+revocationSkew) :
    verdict token values ≠ .ok false := by
  have valid := (reached_contract keyed apart path).1
  have early := valid.clocks signer signedAt
    (reached_stamped keyed apart path signer signedAt token signed).2
  have late := reached_clocks (Int.le_refl _) (fun time old => by
    rw [← mem_own,(valid.unborn pid fresh).2] at old
    exact absurd old List.not_mem_nil) onward w heard
  exact watermark_rejects keyed apart positive (path.trans onward) marked
    ((reached_grows onward).journal signed) (Int.le_trans early late) checks prompt

end Runs

-- With the revocation check closed on failure, what a revocation that has
-- returned was there to cut off is never accepted again, whatever the database
-- and Redis fail at meanwhile, unless an authentication pauses until its token has
-- been expired for five seconds.
theorem revocation_fails_closed {base : List Row} {a s m next : Api} {token : AccessToken}
    (keyed : schema.Keyed base) (apart : schema.Apart base)
    (known : ∀ sess, .session sess ∈ base → sess.id ∈ uuids)
    (closed : cfg.revocationFailClosed = true) (positive : 0 < cfg.jwtTTL)
    (path : Reached (api cfg) (fun _ _ => True) (boot base serial uuids started) a)
    (fresh : a.shared.requests pid = none) (during : Reached (api cfg) (fun _ _ => True) a s)
    (revoking : s.shared.requests pid = some request)
    (returned : s.threads pid = some (.done answer)) (cuts : Cuts a token request)
    (onward : Reached (api cfg) (fun _ _ => True) s m)
    (asked : m.shared.requests q = some (.authenticate token))
    (advanced : advance (api cfg) m (.step q choice) = some next)
    (prompt : m.shared.db.now < token.expiresAt+revocationSkew) :
    next.threads q ≠ some (.done value) := by
  intro accepted
  have prior := path.trans during
  have whole := prior.trans onward
  have grows := reached_grows onward
  obtain ⟨values,checks,clean,signer,signedAt,signed⟩ :=
    accepted_checks keyed apart closed whole asked advanced accepted
  obtain ⟨request',same,assured⟩ :=
    reached_ends (fun request => serve_assured request) keyed apart prior returned
  cases same.symm.trans revoking
  have lasting : ¬cfg.jwtTTL ≤ 0 := Int.not_le.mpr positive
  have everywhere {userID : UUID}
      (all : token.subject = userID ∧ ∃ signer signedAt,
      (signer,.signed signedAt token) ∈ a.shared.journal)
      (landed : (∃ w, .clock w ∈ (s.shared.view pid).events ∧
      .marked (revokedUserKey userID) (formatInt w) ∈ (s.shared.view pid).events) ∨
      cfg.jwtTTL ≤ 0) : False := by
    obtain ⟨rfl,signer,signedAt,early⟩ := all
    obtain ⟨w,heard,marked⟩ := landed.resolve_right lasting
    exact watermark_cuts keyed apart positive path fresh (during.trans onward) early
      (grows.journal (mem_own.mp heard)) (grows.journal (mem_own.mp marked)) checks prompt clean
  cases request with
  | revokeSession ctx sessID =>
      subst cuts
      have marked := grows.journal (mem_own.mp (assured.resolve_right lasting))
      cases clean.symm.trans
        (session_rejects keyed apart known positive whole marked signed checks prompt)
  | revokeUserSessions ctx userID => exact everywhere cuts assured
  | deleteUser ctx userID => exact everywhere cuts assured
  | _ => cases cuts

namespace Controls
open RestApi.Controls Watermarks.Controls

def answered (s : Api) : Bool := match s.threads 1 with
  | some (.done _) => s.shared.requests 1 = some (.revokeUserSessions asAnn "u1")
  | _ => false

def asking (m : Api) (choice : Choice) : Bool := m.shared.requests 2 = some (.authenticate pass) ∧
  m.shared.db.now < pass.expiresAt+revocationSkew ∧
    (advance (api config) m (.step 2 choice)).isSome = true

-- Redis is out of reach when the token of a revoked user is authenticated.
theorem revocation_fails_closed_outage : ∃ m next, Reached (api config) (fun _ _ => True) init m ∧
    m.shared.requests 2 = some (.authenticate pass) ∧
      advance (api config) m (.step 2 .fails) = some next ∧
      ∀ value, next.threads 2 ≠ some (.done value) := by
  obtain ⟨a,path,⟨fresh,signed⟩,rest⟩ :=
    run_finds (api config) (fun _ _ => True) init loggedIn
    (fun a => (a.shared.requests 1 = none ∧ (0,.signed (1000*second) pass) ∈ a.shared.journal) ∧
    (run (api config) (fun _ _ => True) a revoked).any
    (fun s => answered s && (run (api config) (fun _ _ => True) s checking).any (asking · .fails)) =
    true) (by decide +kernel)
  obtain ⟨s,during,rest⟩ := (Option.any_eq_true _ _).mp rest
  obtain ⟨returned,rest⟩ := Bool.and_eq_true_iff.mp rest
  obtain ⟨m,onward,ready⟩ := (Option.any_eq_true _ _).mp rest
  obtain ⟨asked,prompt,moves⟩ := of_decide_eq_true ready
  obtain ⟨next,advanced⟩ := Option.isSome_iff_exists.mp moves
  replace during : Reached (api config) (fun _ _ => True) a s := run_reached .refl during
  replace onward : Reached (api config) (fun _ _ => True) s m := run_reached .refl onward
  refine ⟨m,next,(path.trans during).trans onward,asked,advanced,fun value => ?_⟩
  unfold answered at returned
  split at returned
  · rename_i answer here
    refine revocation_fails_closed ?_ ?_ ?_ rfl (by decide) path fresh during
      (of_decide_eq_true returned) here ⟨rfl,0,_,signed⟩ onward asked advanced prompt
    · simp [Schema.Keyed]
    · simp [Schema.Apart]
    · simp
  · cases returned

end Controls
end RestApi.FailClosed
