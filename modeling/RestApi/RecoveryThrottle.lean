import RestApi.Audited
import RestApi.Leases
import RestApi.Mailings

namespace RestApi.RecoveryThrottle
open Pool Program Protocols RowStore Service Discipline Mailings Leases

variable {cfg : Config} {w after : World} {pid : Pid} {email : String} {started : Time}

def throttleKey (email : String) : String := "throttle:" ++ ("recover-password:" ++ email)

def recoveryFor (email : String) (message : Message) : Bool :=
  message.stream = "email.password_recovery" && message.recipient = email

-- Who was let through for this address and has not mailed yet.
def Holds (email : String) (w : World) (stages : Pid → Stage) (pid : Pid) : Prop :=
  stages pid = .permitted ∧ ∃ ctx, w.requests pid = some (.recoverPassword ctx email)

def Throttled (started : Time) (email : String) (w : World) (stages : Pid → Stage) : Prop :=
  Account passwordRecoveryThrottledTTL started
    ((w.markers (throttleKey email)).map Prod.snd) w.db.now (w.outbox.countP (recoveryFor email))
    (Holds email w stages)

theorem throttleKey_injective (same : throttleKey a = throttleKey b) : a = b :=
  (String.append_right_inj _).mp ((String.append_right_inj _).mp same)

theorem marker_lapsed (absent : w.marker key = none) :
    ∀ lapse, (w.markers key).map Prod.snd = some lapse → lapse ≤ w.db.now := by
  intro lapse known
  obtain ⟨⟨value,expiry⟩,there,rfl⟩ := Option.map_eq_some_iff.mp known
  simpa [World.marker,there] using absent

-- What neither the throttle nor the outbox notices.
theorem throttled_frame {stages changed : Pid → Stage} (account : Throttled started email w stages)
    (markers : after.markers (throttleKey email) = w.markers (throttleKey email))
    (passed : w.db.now ≤ after.db.now)
    (outbox : after.outbox.countP (recoveryFor email) = w.outbox.countP (recoveryFor email))
    (less : ∀ pid, Holds email after changed pid → Holds email w stages pid) :
    Throttled started email after changed := by
  unfold Throttled
  rw [markers,outbox]
  exact account.later passed less

theorem holds_other {stages : Pid → Stage} {stage : Stage} (requests : after.requests = w.requests)
    (released : stage = .permitted → stages pid = .permitted) (other : Pid)
    (held : Holds email after (Function.update stages pid stage) other) :
    Holds email w stages other := by
  obtain ⟨permitted,asked⟩ := held
  refine ⟨?_,requests ▸ asked⟩
  by_cases same : other = pid
  · subst same
    rw [Function.update_self] at permitted
    exact released permitted
  · rwa [Function.update_of_ne same] at permitted

-- One try at the throttle.
theorem acquire_throttled {stages : Pid → Stage} {reply : Option (Except Unit Bool)}
    (account : Throttled started email w stages)
    (asked : w.requests pid = some (.recoverPassword ctx address))
    (ran : exec cfg w pid
      (.redisSetNX (throttleKey address) value passwordRecoveryThrottledTTL) choice =
      some (after,reply)) :
    Throttled started email after (Function.update stages pid
      (posting.moved (stages pid) (.redisSetNX
        (throttleKey address) value passwordRecoveryThrottledTTL) reply)) := by
  have refused {answer : Except Unit Bool} (no : answer ≠ .ok true) :
      Throttled started email w (Function.update stages pid
      (posting.moved (stages pid) (.redisSetNX
      (throttleKey address) value passwordRecoveryThrottledTTL) (some answer))) := by
    refine throttled_frame account rfl (Int.le_refl _) rfl (holds_other rfl fun moved => ?_)
    rcases answer with _ | (_ | _)
    · exact moved
    · exact moved
    · exact absurd rfl no
  cases choice with
  | fails => cases ran; exact refused (by rintro ⟨⟩)
  | runs =>
      simp only [exec] at ran
      split at ran
      · cases ran; exact refused (by rintro ⟨⟩)
      · rename_i absent
        cases ran
        by_cases same : address = email
        · subst same
          unfold Throttled
          simp only [World.setMarker,Function.update_self,Option.map_some]
          refine Account.granted account pid (marker_lapsed absent) fun other held => ?_
          by_cases mine : other = pid
          · exact .inl mine
          · obtain ⟨permitted,asked⟩ := held
            rw [Function.update_of_ne mine] at permitted
            exact .inr ⟨permitted,asked⟩
        · have elsewhere : throttleKey email ≠ throttleKey address :=
            fun equal => same (throttleKey_injective equal).symm
          refine throttled_frame account (Function.update_of_ne elsewhere _ _) (Int.le_refl _) rfl
            fun other held => ?_
          obtain ⟨permitted,ctx',asked'⟩ := held
          refine ⟨?_,ctx',asked'⟩
          by_cases mine : other = pid
          · subst mine
            have equal := asked.symm.trans asked'
            cases equal
            exact absurd rfl same
          · rwa [Function.update_of_ne mine] at permitted
  | _ => cases ran

-- One message handed to the stream.
theorem produce_throttled {stages : Pid → Stage} {message : Message} {t : Tx Row Key}
    (account : Throttled started email w stages) (asked : w.requests pid = some request)
    (allowed : posting.allows (stages pid) (.produce message))
    (sent : Sent cfg raw t request message) :
    Throttled started email {w with outbox := message :: w.outbox}
      (Function.update stages pid .sent) := by
  have stays (other : message.stream = "email.password_recovery" → message.recipient ≠ email) :
      Throttled started email {w with outbox := message :: w.outbox}
          (Function.update stages pid .sent) := by
    have uncounted : recoveryFor email message = false := by
      simp only [recoveryFor,Bool.and_eq_false_iff,decide_eq_false_iff_not]
      exact Classical.or_iff_not_imp_left.mpr fun stream => other (Classical.not_not.mp stream)
    exact throttled_frame account rfl (Int.le_refl _)
      (List.countP_cons_of_neg (by simp [uncounted])) (holds_other rfl (by rintro ⟨⟩))
  cases sent with
  | invitation _ => exact stays fun stream => absurd stream (by simp)
  | @recovery address ctx usr serial issued _ same _ =>
      by_cases here : address = email
      · subst here
        have permitted : stages pid = .permitted :=
          allowed.resolve_right fun other => absurd other.2 (by simp)
        unfold Throttled
        rw [List.countP_cons_of_pos (by simp [recoveryFor,same])]
        refine Account.spend account ⟨permitted,ctx,asked⟩ fun other held => ?_
        refine ⟨holds_other rfl (by rintro ⟨⟩) other held,?_⟩
        rintro rfl
        have moved := held.1
        rw [Function.update_self] at moved
        cases moved
      · exact stays fun _ => by rwa [same]

theorem marks_revocation (marks : Marks cfg request v key value ttl deadline) :
    Audited.Revocation key := by
  obtain ⟨_,_,named⟩ := marks
  cases request with
  | logout ctx sessID => exact .inr ⟨sessID,named.1⟩
  | revokeSession ctx sessID => exact .inr ⟨sessID,named.1⟩
  | changePassword ctx userID _ _ => exact .inl ⟨userID,named.1⟩
  | revokeUserSessions ctx userID => exact .inl ⟨userID,named.1⟩
  | deleteUser ctx userID => exact .inl ⟨userID,named.1⟩
  | resetPassword ctx _ _ => obtain ⟨userID,same,_⟩ := named; exact .inl ⟨userID,same⟩
  | _ => exact named.elim

theorem serve_errands (request : Request) :
    Meets (Local cfg) (fun _ c => errand request c) (fun _ _ => True) (serve cfg request)
      ⟨asked,none,[],none⟩ := by
  refine follows_meets (fun _ _ c allowed => ?_) (serve_outside request)
  exact allowed.2

theorem api_throttled {base : List Row} (keyed : schema.Keyed base) (apart : schema.Apart base)
    (email : String) (allow : Api → Act Request Choice Surroundings → Prop) :
    Guarded (api cfg) allow (boot base serial uuids started) posting (fun _ => .asking) .sent
      (Throttled started email) where
  accepts := by
    intro s stages pid request next _ _ account accepted
    obtain ⟨unasked,rfl⟩ := accept_parts accepted
    refine throttled_frame account rfl (Int.le_refl _) rfl fun other held => ?_
    obtain ⟨permitted,ctx,asked⟩ := held
    have different : other ≠ pid := by
      rintro rfl
      rw [Function.update_self] at permitted
      cases permitted
    rw [Function.update_of_ne different] at permitted
    exact ⟨permitted,ctx,(Function.update_of_ne different _ _).symm.trans asked⟩
  executes := by
    intro s stages pid c rest choice next reply prior account here allowed _ ran
    obtain ⟨request,asked,may⟩ :=
      reached_owes (fun request => serve_errands request) keyed apart prior here
    have done := exec_executed ran
    have grows := executed_grows done
    by_cases quiet : Cmd.quiet c = true
    · have markers : next.markers (throttleKey email) = s.shared.markers (throttleKey email) := by
        rcases executed_marker (throttleKey email) done with ⟨value,ttl,deadline,rfl,_⟩ |
          ⟨value,ttl,rfl⟩ | ⟨same,_⟩
        · obtain ⟨_,meets⟩ := reached_contract keyed apart prior
          obtain ⟨other,_,_,marks⟩ := meets_duty (meets pid _ here)
          exact absurd (marks_revocation marks) (Audited.throttle_not_revocation email)
        · cases quiet
        · exact same
      have outbox : next.outbox = s.shared.outbox := by
        rcases executed_outbox done with same | ⟨message,rfl⟩
        · exact same
        · cases quiet
      rw [quiet_moved quiet,Function.update_eq_self]
      exact throttled_frame account markers grows.now (by rw [outbox]) fun other held =>
        ⟨held.1,executed_requests done ▸ held.2⟩
    · cases c with
      | redisSetNX key value ttl =>
          cases request with
          | recoverPassword ctx address =>
              obtain ⟨rfl,rfl⟩ := may
              exact acquire_throttled account asked ran
          | _ => exact may.elim
      | produce message =>
          obtain ⟨other,known,raw,t,_,_,sent⟩ :=
            reached_owes (fun request => serve_mails request) keyed apart prior here
          cases done with
          | produced => exact produce_throttled account known allowed sent
          | unproduced =>
              exact throttled_frame account rfl (Int.le_refl _) rfl (holds_other rfl (by rintro ⟨⟩))
      | _ => exact absurd rfl quiet
  abandons := by
    intro w stages pid account
    exact throttled_frame account rfl (Int.le_refl _) rfl (holds_other rfl (by rintro ⟨⟩))
  environs := by
    intro s stages event next account _ ran
    have grows := turns_grows (moves_turns (.env ran : Moves (api cfg) s (.env event) _))
    rcases surroundings_parts ran with ⟨elapsed,rfl⟩ | ⟨objects,rfl⟩
    · exact throttled_frame account rfl grows.now rfl fun _ held => held
    · exact throttled_frame account rfl grows.now rfl fun _ held => held

-- However many requests for one address run at once, and however they fail: k
-- recovery mails to it take at least (k-1) times thirty seconds.
theorem recovery_mail_rate {base : List Row} {s : Api} (keyed : schema.Keyed base)
    (apart : schema.Apart base)
    (path : Reached (api cfg) (fun _ _ => True) (boot base serial uuids started) s)
    (email : String) :
    ((s.shared.outbox.countP (recoveryFor email)-1 : Nat) : Int)*passwordRecoveryThrottledTTL ≤
      s.shared.db.now-started := by
  obtain ⟨stages,account,_⟩ := reached_phases (api_throttled keyed apart email _) serve_posts
    (Account.start _ _ _ (by rintro pid ⟨⟨⟩,_⟩)) (fun _ => rfl) path
  simpa using Account.rate (by decide) account

namespace Controls
open RestApi.Controls

def recovered (pid : Pid) (token : String) : Schedule :=
  [.spawn pid (.recoverPassword asAnn "a@x"),.step pid .runs,.step pid .runs,.step pid .runs,
    .step pid (.plan [.user "u1"]),.step pid .next,.step pid .runs,.step pid (.value token),
    .step pid .runs,.step pid .runs,.step pid .runs,.step pid .runs,.step pid .runs]

-- Two mails, thirty seconds apart; a third request in between was turned away.
theorem recovery_mail_rate_twice : ∃ s, Reached (api config) (fun _ _ => True) init s ∧
    s.shared.outbox.countP (recoveryFor "a@x") = 2 ∧
    ((s.shared.outbox.countP (recoveryFor "a@x")-1 : Nat) : Int)*passwordRecoveryThrottledTTL ≤
      s.shared.db.now-1000*second := by
  obtain ⟨s,path,mailed⟩ := run_finds (api config) (fun _ _ => True) init
    (recovered 0 "t1" ++ [.env (.tick 29000000000),.spawn 1 (.recoverPassword asAnn "a@x"),
      .step 1 .runs,.step 1 .runs,.step 1 .runs,.env (.tick 1000000000)] ++ recovered 2 "t2")
    (fun s => s.shared.outbox.countP (recoveryFor "a@x") = 2) (by decide +kernel)
  refine ⟨s,path,mailed,recovery_mail_rate ?_ ?_ path "a@x"⟩
  · simp [Schema.Keyed]
  · simp [Schema.Apart]

end Controls
end RestApi.RecoveryThrottle
