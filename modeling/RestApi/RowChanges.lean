import RestApi.History

namespace RestApi
open Pool Program RowStore

variable {cfg : Config} {request : Request} {t : Tx Row Key} {events : List Event}

theorem CheckedAt.seen {row : Row} (checked : CheckedAt t events row time) : row ∈ t.seen := by
  obtain ⟨_,stamp,locked,_⟩ := checked
  exact List.mem_map_of_mem locked

theorem unlocked_holds (unlocked : t.locked = []) : ¬t.holds schema k := by
  simp [Tx.holds,Tx.seen,unlocked,Schema.keys]

section Sessions

-- All that a commit can do to a session row.
inductive SessionStep (cfg : Config) (request : Request) (events : List Event)
    (s : Session) : Session → Prop where
  | kept : SessionStep cfg request events s s
  | rotated (asked : request = .refreshAccessToken ctx text)
      (hash : s.refreshTokenHash = cfg.hashStr text)
      (unrevoked : s.revokedAt = none) (minted : .token raw ∈ events) :
      SessionStep cfg request events s {s with
        refreshTokenHash := cfg.hashStr ("rt_" ++ raw),accessedAt := accessed,
        ipAddr := ip,userAgent := agent}
  | revoked : SessionStep cfg request events s {s with revokedAt := some time}

-- A session row as a login creates it.
structure LoggedIn (cfg : Config) (events : List Event) (usr : User) (password : String)
    (s : Session) : Prop where
  found : ∃ position, .selected position [.user ⟨usr,none⟩] ∈ events
  verified : cfg.compareHashAndPassword usr.password password = true
  drawn : .uuid s.id ∈ events
  minted : ∃ raw, .token raw ∈ events ∧ s.refreshTokenHash = cfg.hashStr ("rt_" ++ raw)
  owner : s.userID = usr.id
  unrevoked : s.revokedAt = none

theorem revoked_row {hits : List Row} {row : Row} {userID : UUID}
    (wrote : row ∈ hits.map (revokeRow began))
    (passes : ∀ row ∈ hits, activeSessionOf userID row = true ∧ row ∈ t.seen) :
    ∃ old, .session old ∈ t.seen ∧ row = .session {old with revokedAt := some began} := by
  obtain ⟨hit,member,rfl⟩ := List.mem_map.mp wrote
  obtain ⟨active,seen⟩ := passes hit member
  cases hit with
  | session old => exact ⟨old,seen,rfl⟩
  | _ => cases active

theorem revoked_hit {hits : List Row} {userID : UUID}
    (wrote : .session s ∈ hits.map (revokeRow began))
    (passes : ∀ row ∈ hits, activeSessionOf userID row = true ∧ row ∈ t.seen) :
    ∃ old, .session old ∈ t.seen ∧ SessionStep cfg request events old s := by
  obtain ⟨old,seen,same⟩ := revoked_row wrote passes
  cases same
  exact ⟨old,seen,.revoked⟩

theorem superseded_row {hits : List Row} {row : Row} {email : String}
    (wrote : row ∈ hits.map (supersede began))
    (passes : ∀ row ∈ hits, outstandingFor email row = true ∧ row ∈ t.seen) :
    ∃ old, .registration old ∈ t.seen ∧ outstandingFor email (.registration old) = true ∧
      row = .registration {old with revokedAt := some began} := by
  obtain ⟨hit,member,rfl⟩ := List.mem_map.mp wrote
  obtain ⟨outstanding,seen⟩ := passes hit member
  cases hit with
  | registration old => exact ⟨old,seen,outstanding,rfl⟩
  | _ => cases outstanding

theorem session_written (commits : Commits cfg request t events) (wrote : .session s ∈ t.writes) :
    (∃ old, .session old ∈ t.seen ∧ SessionStep cfg request events old s) ∨
      ∃ ctx address password usr, request = .login ctx address password ∧ t.locked = [] ∧
        LoggedIn cfg events usr password s := by
  cases commits with
  | login found _ verified drawn minted unlocked _ writes =>
      simp only [writes,List.mem_cons,reduceCtorEq,Row.session.injEq,List.not_mem_nil,or_false,
        false_or] at wrote
      subst wrote
      exact .inr ⟨_,_,_,_,rfl,unlocked,⟨_,found⟩,verified,drawn,⟨_,minted,rfl⟩,rfl,rfl⟩
  | refreshAccessToken checked hash _ unrevoked _ _ minted writes =>
      simp only [writes,List.mem_cons,Row.session.injEq,List.not_mem_nil,or_false] at wrote
      subst wrote
      exact .inl ⟨_,checked.seen,.rotated rfl hash unrevoked minted⟩
  | logout checked _ _ writes =>
      simp only [writes,List.mem_cons,reduceCtorEq,Row.session.injEq,List.not_mem_nil,or_false,
        false_or] at wrote
      subst wrote
      exact .inl ⟨_,checked.seen,.revoked⟩
  | revokeSession checked _ _ _ writes =>
      simp only [writes,List.mem_cons,reduceCtorEq,Row.session.injEq,List.not_mem_nil,or_false,
        false_or] at wrote
      subst wrote
      exact .inl ⟨_,checked.seen,.revoked⟩
  | resetPassword _ _ _ _ _ _ _ _ _ _ _ revoked _ _ writes =>
      simp only [writes,List.mem_cons,List.mem_append,reduceCtorEq,List.not_mem_nil,or_false,
        false_or] at wrote
      exact .inl (revoked_hit wrote revoked.hits)
  | changePassword _ _ _ _ _ _ _ _ revoked _ _ writes =>
      simp only [writes,List.mem_cons,List.mem_append,reduceCtorEq,rewriteUser,List.not_mem_nil,
        or_false,false_or] at wrote
      exact .inl (revoked_hit wrote revoked.hits)
  | deleteUser _ _ _ revoked _ _ writes =>
      simp only [writes,List.mem_cons,List.mem_append,reduceCtorEq,List.not_mem_nil,or_false,
        false_or] at wrote
      exact .inl (revoked_hit wrote revoked.hits)
  | revokeUserSessions _ revoked _ writes =>
      simp only [writes,List.mem_cons,reduceCtorEq,false_or] at wrote
      exact .inl (revoked_hit wrote revoked.hits)
  | register _ _ _ revoked _ _ _ writes =>
      simp only [writes,List.mem_cons,reduceCtorEq,false_or] at wrote
      obtain ⟨_,_,_,same⟩ := superseded_row wrote revoked.hits
      cases same
  | completeRegistration _ _ _ _ _ _ _ _ writes => simp [writes] at wrote
  | logoutDead _ _ _ writes => simp [writes] at wrote
  | revokeSessionDead _ _ _ _ writes => simp [writes] at wrote
  | recoverPassword _ _ _ _ _ writes => simp [writes] at wrote
  | updateUser _ _ _ _ _ _ writes => simp [writes] at wrote
  | deleteAbsent _ _ _ writes => simp [writes] at wrote
  | changeProfilePicture _ _ _ _ _ _ _ writes => simp [writes] at wrote
  | keepNoPicture _ _ _ _ writes => simp [writes] at wrote
  | deleteProfilePicture _ _ _ _ _ _ writes => simp [writes] at wrote

theorem SessionStep.same (step : SessionStep cfg request events old s) :
    s.id = old.id ∧ s.userID = old.userID ∧ s.expiresAt = old.expiresAt ∧
      (s.revokedAt = none → old.revokedAt = none) := by
  cases step with
  | kept => exact ⟨rfl,rfl,rfl,fun unrevoked => unrevoked⟩
  | rotated _ _ unrevoked _ => exact ⟨rfl,rfl,rfl,fun _ => unrevoked⟩
  | revoked => exact ⟨rfl,rfl,rfl,nofun⟩

variable {base : List Row} {older : List (Entry Row Key)} {entry : Entry Row Key}

-- Seen from the newer state: where a session row comes from.
theorem session_step (fits : Fits schema base older entry.tx)
    (commits : Commits cfg request entry.tx events)
    (member : .session s ∈ schema.rows base (entry :: older)) :
    (∃ old, .session old ∈ schema.rows base older ∧ SessionStep cfg request events old s) ∨
      .session s.id ∉ schema.keys (schema.rows base older) ∧ .session s ∈ entry.tx.writes ∧
        entry.tx.locked = [] ∧
        ∃ ctx address password usr, request = .login ctx address password ∧
          LoggedIn cfg events usr password s := by
  rcases Schema.mem_rows_cons.mp member with wrote | ⟨old,_⟩
  · rcases session_written commits wrote with ⟨old,seen,step⟩ |
      ⟨ctx,address,password,usr,asked,unlocked,created⟩
    · exact .inl ⟨old,fits.current _ seen,step⟩
    · exact .inr ⟨(fits.owned _ wrote).resolve_left (unlocked_holds unlocked),wrote,unlocked,ctx,
        address,password,usr,asked,created⟩
  · exact .inl ⟨s,old,.kept⟩

-- Seen from the older state: no session row is ever lost.
theorem session_persists (fits : Fits schema base older entry.tx)
    (keyed : schema.Keyed (schema.rows base older)) (commits : Commits cfg request entry.tx events)
    (member : .session old ∈ schema.rows base older) :
    ∃ s, .session s ∈ schema.rows base (entry :: older) ∧ SessionStep cfg request events old s := by
  rcases Schema.kept_or_written entry member with kept | ⟨row,_,same,there⟩
  · exact ⟨old,kept,.kept⟩
  · cases row with
    | session s =>
        refine ⟨s,there,?_⟩
        have equal : s.id = old.id := Key.session.inj same
        rcases session_step fits commits there with ⟨prev,present,step⟩ | ⟨fresh,_⟩
        · have id : schema.key (.session prev) = schema.key (.session old) :=
            congrArg Key.session (step.same.1.symm.trans equal)
          cases keyed _ present _ member id
          exact step
        · rw [equal] at fresh
          exact absurd (Schema.mem_keys.mpr ⟨_,member,rfl⟩) fresh
    | _ => cases same

end Sessions

section Users

-- A commit that replaces the password hash or deletes the user also revokes the
-- sessions its last statement finds, and does nothing else to sessions.
structure Sweeps (t : Tx Row Key) (userID : UUID) (revoking : Scan Row Key) : Prop where
  scanned : Scanned schema (activeSessionOf userID) t revoking
  last : t.done.head? = some revoking
  writes : ∀ hit ∈ revoking.hits, revokeRow t.began hit ∈ t.writes
  only : ∀ s, .session s ∈ t.writes → .session s ∈ revoking.hits.map (revokeRow t.began)

theorem sweeps_writes {record : Row} {rest : List Row} {revoking : Scan Row Key}
    (scanned : Scanned schema (activeSessionOf userID) t revoking)
    (last : t.done.head? = some revoking)
    (writes : t.writes = record :: (revoking.hits.map (revokeRow t.began) ++ rest))
    (others : ∀ s, .session s ∉ record :: rest) : Sweeps t userID revoking where
  scanned := scanned
  last := last
  writes hit member := by
    rw [writes]
    exact List.mem_cons_of_mem _ (List.mem_append_left _ (List.mem_map_of_mem member))
  only s wrote := by
    rw [writes] at wrote
    rcases List.mem_cons.mp wrote with rfl | wrote
    · exact absurd List.mem_cons_self (others s)
    · exact (List.mem_append.mp wrote).resolve_right fun other =>
        others s (List.mem_cons_of_mem _ other)

-- All that a commit can do to a user row, as far as credentials go.
def UserStep (t : Tx Row Key) (old new : UserRow) : Prop := new.user.id = old.user.id ∧
  (new.user.password = old.user.password ∧ new.deletedAt = old.deletedAt ∨
    ∃ revoking, Sweeps t old.user.id revoking)

-- A user row as CompleteRegistration creates it.
structure Enrolled (cfg : Config) (t : Tx Row Key) (events : List Event) (text : String)
    (token : RegistrationToken) (row : UserRow) : Prop where
  checked : ∃ checkedAt, CheckedAt t events (.registration token) checkedAt ∧
    token.isValid checkedAt = true
  hash : token.tokenHash = cfg.hashStr text
  user : row.user.name = token.name ∧ row.user.email = token.email ∧ row.deletedAt = none
  drawn : .uuid row.user.id ∈ events
  used : ∃ used, .registration {token with usedAt := some used} ∈ t.writes
  unheld : ¬t.holds schema (.user row.user.id)

theorem user_written (commits : Commits cfg request t events) (wrote : .user row ∈ t.writes) :
    (∃ old, .user old ∈ t.seen ∧ row.user.role = old.user.role ∧ UserStep t old row) ∨
      ∃ ctx text password token, request = .completeRegistration ctx text password ∧
        row.user.role = .user ∧
        Enrolled cfg t events text token row := by
  cases commits with
  | completeRegistration checked hash valid drawn _ user fresh _ writes =>
      rename_i used _ _ _
      simp only [writes,List.mem_cons,reduceCtorEq,Row.user.injEq,List.not_mem_nil,or_false,
        false_or] at wrote
      subst wrote user
      exact .inr ⟨_,_,_,_,rfl,rfl,⟨_,checked,valid⟩,hash,⟨rfl,rfl,rfl⟩,drawn,⟨used,by simp [writes]⟩,
        fresh⟩
  | resetPassword _ _ _ _ _ _ live _ _ _ _ revoked last _ writes =>
      have sweeps := sweeps_writes revoked last writes (by simp)
      simp only [writes,List.mem_cons,List.mem_append,reduceCtorEq,Row.user.injEq,List.not_mem_nil,
        or_false,false_or] at wrote
      rcases wrote with hit | rfl
      · obtain ⟨_,_,same⟩ := revoked_row hit revoked.hits
        cases same
      · exact .inl ⟨_,live,rfl,rfl,.inr ⟨_,sweeps⟩⟩
  | changePassword _ _ _ _ _ _ locked target revoked last _ writes =>
      have sweeps := sweeps_writes revoked last writes (by simp [rewriteUser])
      simp only [writes,List.mem_cons,List.mem_append,reduceCtorEq,rewriteUser,Row.user.injEq,
        List.not_mem_nil,or_false,false_or] at wrote
      rcases wrote with hit | rfl
      · obtain ⟨_,_,same⟩ := revoked_row hit revoked.hits
        cases same
      · exact .inl ⟨_,locked,rfl,rfl,.inr ⟨_,target ▸ sweeps⟩⟩
  | deleteUser _ live same revoked last _ writes =>
      have sweeps := sweeps_writes revoked last writes (by simp)
      simp only [writes,List.mem_cons,List.mem_append,reduceCtorEq,Row.user.injEq,List.not_mem_nil,
        or_false,false_or] at wrote
      rcases wrote with hit | rfl
      · obtain ⟨_,_,same⟩ := revoked_row hit revoked.hits
        cases same
      · exact .inl ⟨_,live,rfl,rfl,.inr ⟨_,same ▸ sweeps⟩⟩
  | updateUser _ live _ changed _ _ writes =>
      simp only [writes,List.mem_cons,reduceCtorEq,Row.user.injEq,List.not_mem_nil,or_false,
        false_or] at wrote
      subst wrote changed
      exact .inl ⟨_,live,rfl,rfl,.inl ⟨rfl,rfl⟩⟩
  | changeProfilePicture _ live _ _ _ changed _ writes =>
      simp only [writes,List.mem_cons,reduceCtorEq,Row.user.injEq,List.not_mem_nil,or_false,
        false_or] at wrote
      subst wrote changed
      exact .inl ⟨_,live,rfl,rfl,.inl ⟨rfl,rfl⟩⟩
  | deleteProfilePicture _ live _ _ changed _ writes =>
      simp only [writes,List.mem_cons,reduceCtorEq,Row.user.injEq,List.not_mem_nil,or_false,
        false_or] at wrote
      subst wrote changed
      exact .inl ⟨_,live,rfl,rfl,.inl ⟨rfl,rfl⟩⟩
  | revokeUserSessions _ revoked _ writes =>
      simp only [writes,List.mem_cons,reduceCtorEq,false_or] at wrote
      obtain ⟨_,_,same⟩ := revoked_row wrote revoked.hits
      cases same
  | register _ _ _ revoked _ _ _ writes =>
      simp only [writes,List.mem_cons,reduceCtorEq,false_or] at wrote
      obtain ⟨_,_,_,same⟩ := superseded_row wrote revoked.hits
      cases same
  | login _ _ _ _ _ _ _ writes => simp [writes] at wrote
  | refreshAccessToken _ _ _ _ _ _ _ writes => simp [writes] at wrote
  | logout _ _ _ writes => simp [writes] at wrote
  | revokeSession _ _ _ _ writes => simp [writes] at wrote
  | logoutDead _ _ _ writes => simp [writes] at wrote
  | revokeSessionDead _ _ _ _ writes => simp [writes] at wrote
  | recoverPassword _ _ _ _ _ writes => simp [writes] at wrote
  | deleteAbsent _ _ _ writes => simp [writes] at wrote
  | keepNoPicture _ _ _ _ writes => simp [writes] at wrote

variable {base : List Row} {older : List (Entry Row Key)} {entry : Entry Row Key}

-- No user row is ever lost, and none is replaced by a new one.
theorem user_persists (fits : Fits schema base older entry.tx)
    (keyed : schema.Keyed (schema.rows base older)) (commits : Commits cfg request entry.tx events)
    (member : .user old ∈ schema.rows base older) :
    ∃ new, .user new ∈ schema.rows base (entry :: older) ∧
      (new = old ∨ .user new ∈ entry.tx.writes ∧ .user old ∈ entry.tx.seen ∧
        UserStep entry.tx old new) := by
  rcases Schema.kept_or_written entry member with kept | ⟨row,wrote,same,there⟩
  · exact ⟨old,kept,.inl rfl⟩
  · cases row with
    | user new =>
        refine ⟨new,there,.inr ⟨wrote,?_⟩⟩
        rcases user_written commits wrote with ⟨prev,seen,_,step⟩ | ⟨_,_,_,_,_,_,enrolled⟩
        · have id : schema.key (.user prev) = schema.key (.user old) :=
            Eq.trans (congrArg Key.user step.1.symm) same
          cases keyed _ (fits.current _ seen) _ member id
          exact ⟨seen,step⟩
        · have fresh := (fits.owned _ wrote).resolve_left enrolled.unheld
          exact absurd (Schema.mem_keys.mpr ⟨_,member,same.symm⟩) fresh
    | _ => cases same

end Users

section Tokens

-- All that a commit can do to an emailed token.
inductive RecoveryStep (cfg : Config) (request : Request) (token : PasswordRecoveryToken) :
    PasswordRecoveryToken → Prop where
  | kept : RecoveryStep cfg request token token
  | used (asked : request = .resetPassword ctx text password)
      (hash : token.tokenHash = cfg.hashStr text) (unused : token.usedAt = none) :
      RecoveryStep cfg request token {token with usedAt := some time}

inductive RegistrationStep (cfg : Config) (request : Request)
    (token : RegistrationToken) : RegistrationToken → Prop where
  | kept : RegistrationStep cfg request token token
  | superseded (asked : request = .register ctx name token.email)
      (outstanding : token.usedAt = none ∧ token.revokedAt = none) :
      RegistrationStep cfg request token {token with revokedAt := some time}
  | used (asked : request = .completeRegistration ctx text password)
      (hash : token.tokenHash = cfg.hashStr text)
      (outstanding : token.usedAt = none ∧ token.revokedAt = none) :
      RegistrationStep cfg request token {token with usedAt := some time}

-- An emailed token as its request issues it.
structure Recovers (cfg : Config) (request : Request) (t : Tx Row Key) (events : List Event)
    (token : PasswordRecoveryToken) : Prop where
  asked : ∃ ctx address, request = .recoverPassword ctx address
  minted : ∃ raw, .token raw ∈ events ∧ token.tokenHash = cfg.hashStr raw
  unused : token.usedAt = none
  unheld : ¬t.holds schema (.recovery token.id)

structure Invites (cfg : Config) (request : Request) (t : Tx Row Key) (events : List Event)
    (token : RegistrationToken) : Prop where
  asked : ∃ ctx, request = .register ctx token.name token.email
  minted : ∃ raw, .token raw ∈ events ∧ token.tokenHash = cfg.hashStr ("regt_" ++ raw)
  outstanding : token.usedAt = none ∧ token.revokedAt = none
  unheld : ¬t.holds schema (.registration token.id)

theorem recovery_written (commits : Commits cfg request t events)
    (wrote : .recovery token ∈ t.writes) :
    (∃ old, .recovery old ∈ t.seen ∧ RecoveryStep cfg request old token) ∨
      Recovers cfg request t events token := by
  cases commits with
  | recoverPassword _ _ minted fresh _ writes =>
      simp only [writes,List.mem_cons,reduceCtorEq,Row.recovery.injEq,List.not_mem_nil,or_false,
        false_or] at wrote
      subst wrote
      exact .inr ⟨⟨_,_,rfl⟩,⟨_,minted,rfl⟩,rfl,fresh⟩
  | resetPassword _ _ checked hash _ unused _ _ _ _ _ revoked _ _ writes =>
      simp only [writes,List.mem_cons,List.mem_append,reduceCtorEq,Row.recovery.injEq,
        List.not_mem_nil,or_false,false_or] at wrote
      rcases wrote with swept | rfl
      · obtain ⟨_,_,same⟩ := revoked_row swept revoked.hits
        cases same
      · exact .inl ⟨_,checked.seen,.used rfl hash unused⟩
  | changePassword _ _ _ _ _ _ _ _ revoked _ _ writes =>
      simp only [writes,List.mem_cons,List.mem_append,reduceCtorEq,rewriteUser,List.not_mem_nil,
        or_false,false_or] at wrote
      obtain ⟨_,_,same⟩ := revoked_row wrote revoked.hits
      cases same
  | deleteUser _ _ _ revoked _ _ writes =>
      simp only [writes,List.mem_cons,List.mem_append,reduceCtorEq,List.not_mem_nil,or_false,
        false_or] at wrote
      obtain ⟨_,_,same⟩ := revoked_row wrote revoked.hits
      cases same
  | revokeUserSessions _ revoked _ writes =>
      simp only [writes,List.mem_cons,reduceCtorEq,false_or] at wrote
      obtain ⟨_,_,same⟩ := revoked_row wrote revoked.hits
      cases same
  | register _ _ _ revoked _ _ _ writes =>
      simp only [writes,List.mem_cons,reduceCtorEq,false_or] at wrote
      obtain ⟨_,_,_,same⟩ := superseded_row wrote revoked.hits
      cases same
  | completeRegistration _ _ _ _ _ _ _ _ writes => simp [writes] at wrote
  | login _ _ _ _ _ _ _ writes => simp [writes] at wrote
  | refreshAccessToken _ _ _ _ _ _ _ writes => simp [writes] at wrote
  | logout _ _ _ writes => simp [writes] at wrote
  | revokeSession _ _ _ _ writes => simp [writes] at wrote
  | logoutDead _ _ _ writes => simp [writes] at wrote
  | revokeSessionDead _ _ _ _ writes => simp [writes] at wrote
  | updateUser _ _ _ _ _ _ writes => simp [writes] at wrote
  | deleteAbsent _ _ _ writes => simp [writes] at wrote
  | changeProfilePicture _ _ _ _ _ _ _ writes => simp [writes] at wrote
  | keepNoPicture _ _ _ _ writes => simp [writes] at wrote
  | deleteProfilePicture _ _ _ _ _ _ writes => simp [writes] at wrote

theorem registration_written (commits : Commits cfg request t events)
    (wrote : .registration token ∈ t.writes) :
    (∃ old, .registration old ∈ t.seen ∧ RegistrationStep cfg request old token) ∨
      Invites cfg request t events token := by
  cases commits with
  | register _ _ _ revoked minted fresh _ writes =>
      simp only [writes,List.mem_cons,reduceCtorEq,Row.registration.injEq,false_or] at wrote
      rcases wrote with rfl | swept
      · exact .inr ⟨⟨_,rfl⟩,⟨_,minted,rfl⟩,⟨rfl,rfl⟩,fresh⟩
      · obtain ⟨old,seen,passes,same⟩ := superseded_row swept revoked.hits
        cases same
        simp only [outstandingFor,Bool.and_eq_true,decide_eq_true_eq,Option.isNone_iff_eq_none]
          at passes
        obtain ⟨⟨email,unused⟩,unrevoked⟩ := passes
        exact .inl ⟨old,seen,.superseded (by rw [email]) ⟨unused,unrevoked⟩⟩
  | completeRegistration checked hash valid _ _ _ _ _ writes =>
      simp only [writes,List.mem_cons,reduceCtorEq,Row.registration.injEq,List.not_mem_nil,or_false,
        false_or] at wrote
      subst wrote
      simp only [RegistrationToken.isValid,Bool.and_eq_true,Option.isNone_iff_eq_none] at valid
      exact .inl ⟨_,checked.seen,.used rfl hash valid.1⟩
  | resetPassword _ _ _ _ _ _ _ _ _ _ _ revoked _ _ writes =>
      simp only [writes,List.mem_cons,List.mem_append,reduceCtorEq,List.not_mem_nil,or_false,
        false_or] at wrote
      obtain ⟨_,_,same⟩ := revoked_row wrote revoked.hits
      cases same
  | changePassword _ _ _ _ _ _ _ _ revoked _ _ writes =>
      simp only [writes,List.mem_cons,List.mem_append,reduceCtorEq,rewriteUser,List.not_mem_nil,
        or_false,false_or] at wrote
      obtain ⟨_,_,same⟩ := revoked_row wrote revoked.hits
      cases same
  | deleteUser _ _ _ revoked _ _ writes =>
      simp only [writes,List.mem_cons,List.mem_append,reduceCtorEq,List.not_mem_nil,or_false,
        false_or] at wrote
      obtain ⟨_,_,same⟩ := revoked_row wrote revoked.hits
      cases same
  | revokeUserSessions _ revoked _ writes =>
      simp only [writes,List.mem_cons,reduceCtorEq,false_or] at wrote
      obtain ⟨_,_,same⟩ := revoked_row wrote revoked.hits
      cases same
  | recoverPassword _ _ _ _ _ writes => simp [writes] at wrote
  | login _ _ _ _ _ _ _ writes => simp [writes] at wrote
  | refreshAccessToken _ _ _ _ _ _ _ writes => simp [writes] at wrote
  | logout _ _ _ writes => simp [writes] at wrote
  | revokeSession _ _ _ _ writes => simp [writes] at wrote
  | logoutDead _ _ _ writes => simp [writes] at wrote
  | revokeSessionDead _ _ _ _ writes => simp [writes] at wrote
  | updateUser _ _ _ _ _ _ writes => simp [writes] at wrote
  | deleteAbsent _ _ _ writes => simp [writes] at wrote
  | changeProfilePicture _ _ _ _ _ _ _ writes => simp [writes] at wrote
  | keepNoPicture _ _ _ _ writes => simp [writes] at wrote
  | deleteProfilePicture _ _ _ _ _ _ writes => simp [writes] at wrote

variable {base : List Row} {older : List (Entry Row Key)} {entry : Entry Row Key}

theorem recovery_step (fits : Fits schema base older entry.tx)
    (commits : Commits cfg request entry.tx events)
    (member : .recovery token ∈ schema.rows base (entry :: older)) :
    (∃ old, .recovery old ∈ schema.rows base older ∧ RecoveryStep cfg request old token) ∨
      .recovery token.id ∉ schema.keys (schema.rows base older) ∧
        Recovers cfg request entry.tx events token := by
  rcases Schema.mem_rows_cons.mp member with wrote | ⟨old,_⟩
  · rcases recovery_written commits wrote with ⟨old,seen,step⟩ | issued
    · exact .inl ⟨old,fits.current _ seen,step⟩
    · exact .inr ⟨(fits.owned _ wrote).resolve_left issued.unheld,issued⟩
  · exact .inl ⟨token,old,.kept⟩

theorem registration_step (fits : Fits schema base older entry.tx)
    (commits : Commits cfg request entry.tx events)
    (member : .registration token ∈ schema.rows base (entry :: older)) :
    (∃ old, .registration old ∈ schema.rows base older ∧ RegistrationStep cfg request old token) ∨
      .registration token.id ∉ schema.keys (schema.rows base older) ∧
        .registration token ∈ entry.tx.writes ∧
        Invites cfg request entry.tx events token := by
  rcases Schema.mem_rows_cons.mp member with wrote | ⟨old,_⟩
  · rcases registration_written commits wrote with ⟨old,seen,step⟩ | issued
    · exact .inl ⟨old,fits.current _ seen,step⟩
    · exact .inr ⟨(fits.owned _ wrote).resolve_left issued.unheld,wrote,issued⟩
  · exact .inl ⟨token,old,.kept⟩

theorem RecoveryStep.same (step : RecoveryStep cfg request old token) :
    token.id = old.id ∧ token.tokenHash = old.tokenHash ∧
      (old.usedAt.isSome → token.usedAt = old.usedAt) := by
  cases step with
  | kept => exact ⟨rfl,rfl,fun _ => rfl⟩
  | used _ _ unused => exact ⟨rfl,rfl,fun used => by simp [unused] at used⟩

theorem RegistrationStep.same (step : RegistrationStep cfg request old token) :
    token.id = old.id ∧ token.tokenHash = old.tokenHash ∧
      (old.usedAt.isSome → token.usedAt = old.usedAt) := by
  cases step with
  | kept => exact ⟨rfl,rfl,fun _ => rfl⟩
  | superseded _ _ => exact ⟨rfl,rfl,fun _ => rfl⟩
  | used _ _ outstanding => exact ⟨rfl,rfl,fun used => by simp [outstanding.1] at used⟩

-- No emailed token is ever lost.
theorem recovery_persists (fits : Fits schema base older entry.tx)
    (keyed : schema.Keyed (schema.rows base older)) (commits : Commits cfg request entry.tx events)
    (member : .recovery old ∈ schema.rows base older) :
    ∃ token, .recovery token ∈ schema.rows base (entry :: older) ∧
      RecoveryStep cfg request old token := by
  rcases Schema.kept_or_written entry member with kept | ⟨row,_,same,there⟩
  · exact ⟨old,kept,.kept⟩
  · cases row with
    | recovery token =>
        refine ⟨token,there,?_⟩
        have equal : token.id = old.id := Key.recovery.inj same
        rcases recovery_step fits commits there with ⟨prev,present,step⟩ | ⟨fresh,_⟩
        · have id : schema.key (.recovery prev) = schema.key (.recovery old) :=
            congrArg Key.recovery (step.same.1.symm.trans equal)
          cases keyed _ present _ member id
          exact step
        · rw [equal] at fresh
          exact absurd (Schema.mem_keys.mpr ⟨_,member,rfl⟩) fresh
    | _ => cases same

theorem registration_persists (fits : Fits schema base older entry.tx)
    (keyed : schema.Keyed (schema.rows base older)) (commits : Commits cfg request entry.tx events)
    (member : .registration old ∈ schema.rows base older) :
    ∃ token, .registration token ∈ schema.rows base (entry :: older) ∧
      RegistrationStep cfg request old token := by
  rcases Schema.kept_or_written entry member with kept | ⟨row,_,same,there⟩
  · exact ⟨old,kept,.kept⟩
  · cases row with
    | registration token =>
        refine ⟨token,there,?_⟩
        have equal : token.id = old.id := Key.registration.inj same
        rcases registration_step fits commits there with ⟨prev,present,step⟩ | ⟨fresh,_⟩
        · have id : schema.key (.registration prev) = schema.key (.registration old) :=
            congrArg Key.registration (step.same.1.symm.trans equal)
          cases keyed _ present _ member id
          exact step
        · rw [equal] at fresh
          exact absurd (Schema.mem_keys.mpr ⟨_,member,rfl⟩) fresh
    | _ => cases same

end Tokens

section Runs
variable {w : World} {Met : List Event → Tx Row Key → List (Entry Row Key) → Prop}

-- What one commit does to a row, many commits do.
theorem History.follows (Follows : Row → Row → Prop) (same : ∀ row, Follows row row)
    (joins : ∀ {a b c}, Follows a b → Follows b c → Follows a c)
    (step : ∀ {older entry request events row}, History cfg w Met older →
      Made cfg w Met older entry request events → row ∈ schema.rows w.db.base older →
      ∃ newer ∈ schema.rows w.db.base (entry :: older), Follows row newer)
    (history : History cfg w Met (newer ++ older)) (member : row ∈ schema.rows w.db.base older) :
    ∃ last ∈ schema.rows w.db.base (newer ++ older), Follows row last := by
  induction newer with
  | nil => exact ⟨row,member,same row⟩
  | cons entry rest ih =>
      cases history with
      | commit before made =>
          obtain ⟨middle,there,first⟩ := ih before
          obtain ⟨last,here,second⟩ := step before made there
          exact ⟨last,here,joins first second⟩

-- A session keeps its id, its user and its expiry, and once revoked stays revoked.
def FollowsSession (old new : Row) : Prop := new.key = old.key ∧ ∀ before, old = .session before →
  ∃ after, new = .session after ∧ after.userID = before.userID ∧
    after.expiresAt = before.expiresAt ∧ (after.revokedAt = none → before.revokedAt = none)

theorem row_follows (keyed : schema.Keyed w.db.base) (apart : schema.Apart w.db.base)
    (history : History cfg w Met (newer ++ older)) (member : row ∈ schema.rows w.db.base older) :
    ∃ last ∈ schema.rows w.db.base (newer ++ older), FollowsSession row last := by
  have same (row : Row) : FollowsSession row row :=
    ⟨rfl,fun sess known => ⟨sess,known,rfl,rfl,fun alive => alive⟩⟩
  refine history.follows FollowsSession same ?_ ?_ member
  · rintro a b c ⟨key,first⟩ ⟨key',next⟩
    refine ⟨key'.trans key,fun before known => ?_⟩
    obtain ⟨middle,there,owner,expiry,alive⟩ := first before known
    obtain ⟨after,here,owner',expiry',alive'⟩ := next middle there
    exact ⟨after,here,owner'.trans owner,expiry'.trans expiry,
      fun unrevoked => alive (alive' unrevoked)⟩
  · intro older entry request events row before made member
    cases row with
    | session old =>
        obtain ⟨sess,there,step⟩ :=
          session_persists made.fits (before.chronicle keyed apart).keyed made.commits member
        obtain ⟨id,owner,expiry,alive⟩ := step.same
        refine ⟨_,there,congrArg Key.session id,fun _ known => ?_⟩
        cases known
        exact ⟨sess,rfl,owner,expiry,alive⟩
    | _ =>
        rcases Schema.kept_or_written entry member with kept | ⟨newer,_,key,there⟩
        · exact ⟨_,kept,same _⟩
        · exact ⟨newer,there,key,nofun⟩

theorem session_kept (keyed : schema.Keyed w.db.base) (apart : schema.Apart w.db.base)
    (history : History cfg w Met (newer ++ older))
    (member : .session old ∈ schema.rows w.db.base older) :
    ∃ new, .session new ∈ schema.rows w.db.base (newer ++ older) ∧ new.id = old.id ∧
      new.userID = old.userID ∧
      new.expiresAt = old.expiresAt ∧ (new.revokedAt = none → old.revokedAt = none) := by
  obtain ⟨_,there,key,follows⟩ := row_follows keyed apart history member
  obtain ⟨new,rfl,owner,expiry,alive⟩ := follows old rfl
  exact ⟨new,there,Key.session.inj key,owner,expiry,alive⟩

-- A live session was there, alive, at any earlier point, unless its login came later.
theorem session_traced (history : History cfg w Met log) (past : n ≤ log.length)
    (member : .session sess ∈ schema.rows w.db.base log) (unrevoked : sess.revokedAt = none) :
    (∃ old, .session old ∈ schema.rowsAt w.db.base log n ∧ old.id = sess.id ∧
      old.userID = sess.userID ∧ old.revokedAt = none) ∨
      ∃ entry ∈ recent log n, entry.tx.locked = [] ∧
        (∃ new, .session new ∈ entry.tx.writes ∧ new.userID = sess.userID) ∧
        ∃ ctx address password, w.requests entry.owner = some (.login ctx address password) := by
  induction history generalizing sess with
  | start => exact .inl ⟨sess,by simpa [Schema.rowsAt] using member,rfl,rfl,unrevoked⟩
  | @commit older entry request events before made ih =>
      rcases Nat.lt_or_eq_of_le past with longer | rfl
      · have early : n ≤ older.length := Nat.le_of_lt_succ longer
        rw [Schema.rowsAt_cons early,recent_cons early]
        rcases session_step made.fits made.commits member with ⟨prev,there,step⟩ |
          ⟨_,wrote,unlocked,ctx,address,password,_,asked,_⟩
        · obtain ⟨id,owner,_,alive⟩ := step.same
          rw [id,owner]
          rcases ih early there (alive unrevoked) with found | ⟨login,recently,logs⟩
          · exact .inl found
          · exact .inr ⟨login,List.mem_cons_of_mem _ recently,logs⟩
        · exact .inr ⟨entry,List.mem_cons_self,unlocked,⟨sess,wrote,rfl⟩,ctx,address,password,
            asked ▸ made.asked⟩
      · rw [Schema.rowsAt_length]
        exact .inl ⟨sess,member,rfl,rfl,unrevoked⟩

-- A sweep whose snapshot no login escaped finds every live session of its user.
theorem sweep_finds (before : History cfg w Met older) (fits : Fits schema w.db.base older t)
    (keyed : schema.Keyed (schema.rows w.db.base older)) (sweeps : Sweeps t userID revoking)
    (quiet : ∀ login ∈ recent older revoking.start, login.tx.locked = [] →
      ∀ new, .session new ∈ login.tx.writes → new.userID ≠ userID)
    (member : .session sess ∈ schema.rows w.db.base older)
    (active : activeSessionOf userID (.session sess) = true) : .session sess ∈ revoking.hits := by
  obtain ⟨owner,alive⟩ : sess.userID = userID ∧ sess.revokedAt = none := by
    simpa [activeSessionOf] using active
  have present {row : Row} (hit : row ∈ revoking.hits)
    (same : schema.key row = schema.key (.session sess)) : .session sess ∈ revoking.hits :=
    keyed _ (fits.current row (sweeps.scanned.hits row hit).2) _ member same ▸ hit
  have start := (fits.scans revoking (List.mem_append_right _ sweeps.scanned.listed)).2.1
  rcases session_traced before start member alive with ⟨old,snapshot,id,also,live⟩ |
    ⟨login,recently,unlocked,⟨new,wrote,also⟩,_⟩
  · have passes : activeSessionOf userID (.session old) = true := by
      simp [activeSessionOf,also.trans owner,live]
    have key : schema.key (.session old) = schema.key (.session sess) := congrArg Key.session id
    rcases sweeps.scanned.covers fits snapshot passes with hit | ⟨row,locked,fails,same⟩ | written
    · obtain ⟨row,found,same⟩ := Schema.mem_keys.mp hit
      exact present found (same.trans key)
    · -- The lock shows the current version, and that one is active.
      cases keyed _ (fits.current row locked) _ member (same.trans key)
      exact absurd active (by simp [fails])
    · obtain ⟨row,wrote,same⟩ := Schema.mem_keys.mp written
      cases row with
      | session new =>
          obtain ⟨hit,found,rewritten⟩ := List.mem_map.mp (sweeps.only new wrote)
          refine present found (Eq.trans ?_ (same.trans key))
          rw [← rewritten]
          cases hit <;> rfl
      | _ => cases same
  · exact absurd (also.trans owner) (quiet login recently unlocked new wrote)

-- And it leaves none of them alive.
theorem swept_dead (before : History cfg w Met older) (fits : Fits schema w.db.base older entry.tx)
    (keyed : schema.Keyed (schema.rows w.db.base older)) (sweeps : Sweeps entry.tx userID revoking)
    (quiet : ∀ login ∈ recent older revoking.start, login.tx.locked = [] →
      ∀ new, .session new ∈ login.tx.writes → new.userID ≠ userID)
    (member : .session old ∈ schema.rows w.db.base older)
    (active : activeSessionOf userID (.session old) = true)
    (new : .session sess ∈ schema.rows w.db.base (entry :: older))
    (same : sess.id = old.id) : sess.revokedAt ≠ none := by
  have hit := sweep_finds before fits keyed sweeps quiet member active
  have revoked : revokeRow entry.tx.began (.session old) ∈ schema.rows w.db.base (entry :: older) :=
    Schema.mem_rows_cons.mpr (.inl (sweeps.writes _ hit))
  cases Schema.keyed_overlay keyed fits.keyed _ new _ revoked (congrArg Key.session same)
  exact nofun

end Runs
end RestApi
