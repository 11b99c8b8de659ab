import RestApi.RowChanges

namespace RestApi.Accounts
open Pool Program RowStore

variable {cfg : Config}

-- The columns of a user that no request may change.
structure Identity (old new : User) : Prop where
  id : new.id = old.id
  email : new.email = old.email
  verified : new.emailVerifiedAt = old.emailVerifiedAt
  role : new.role = old.role
  created : new.createdAt = old.createdAt

theorem Identity.refl (u : User) : Identity u u := ⟨rfl,rfl,rfl,rfl,rfl⟩

theorem Identity.trans (first : Identity a b) (second : Identity b c) : Identity a c :=
  ⟨second.id.trans first.id,second.email.trans first.email,second.verified.trans first.verified,
    second.role.trans first.role,second.created.trans first.created⟩

section Commits
variable {request : Request} {t : Tx Row Key} {events : List Event}

-- The password a commit leaves in a row: the old one, one that came with the link
-- of a recovery token of the user, or one that came with the password before it.
inductive Rekeyed (cfg : Config) (request : Request) (t : Tx Row Key) (events : List Event)
    (old : User) : String → Prop where
  | kept : Rekeyed cfg request t events old old.password
  | reset (asked : request = .resetPassword ctx text password) (link : .recovery token ∈ t.seen)
      (hash : token.tokenHash = cfg.hashStr text) (owner : token.userID = old.id)
      (unused : token.usedAt = none) (verifies : cfg.compareHashAndPassword digest password = true)
      : Rekeyed cfg request t events old digest
  | changed (asked : request = .changePassword ctx old.id password newPassword)
      (permitted : requireSelfOr cfg ctx old.id .changePassword = .done ())
      (found : .selected position [.user ⟨prior,none⟩] ∈ events) (same : prior.id = old.id)
      (verified : cfg.compareHashAndPassword prior.password password = true)
      (verifies : cfg.compareHashAndPassword digest newPassword = true) :
      Rekeyed cfg request t events old digest

-- A rewritten row: the key columns are those under the lock, the others those of
-- `source`, which is the same row or, for ChangePassword, what it had read before
-- its transaction.
structure Rewritten (cfg : Config) (request : Request) (t : Tx Row Key) (events : List Event)
    (old : UserRow) (source : User) (new : UserRow) : Prop where
  id : new.user.id = old.user.id
  role : new.user.role = old.user.role
  created : new.user.createdAt = old.user.createdAt
  deleted : old.deletedAt ≠ none → new.deletedAt = old.deletedAt
  target : source.id = old.user.id
  email : new.user.email = source.email
  verified : new.user.emailVerifiedAt = source.emailVerifiedAt
  known : source = old.user ∨ ∃ position, .selected position [.user ⟨source,none⟩] ∈ events
  password : Rekeyed cfg request t events old.user new.user.password

-- A row created by CompleteRegistration.
structure Founds (cfg : Config) (request : Request) (t : Tx Row Key) (events : List Event)
    (token : RegistrationToken) (new : UserRow) : Prop where
  asked : ∃ ctx text password, request = .completeRegistration ctx text password ∧
    token.tokenHash = cfg.hashStr text ∧
    cfg.compareHashAndPassword new.user.password password = true
  locked : .registration token ∈ t.seen
  outstanding : token.usedAt = none ∧ token.revokedAt = none
  user : new.user.name = token.name ∧ new.user.email = token.email ∧ new.user.role = .user ∧
    new.deletedAt = none
  unheld : ¬t.holds schema (.user new.user.id)

theorem live_rewritten {old new : User} (same : Identity old new)
    (password : Rekeyed cfg request t events old new.password) (deletion : Option Time) :
    Rewritten cfg request t events ⟨old,none⟩ old ⟨new,deletion⟩ :=
  ⟨same.id,same.role,same.created,fun gone => absurd rfl gone,rfl,same.email,same.verified,.inl rfl,
    password⟩

theorem kept_rewritten {old new : User} (same : Identity old new)
    (password : new.password = old.password) (deletion : Option Time) :
    Rewritten cfg request t events ⟨old,none⟩ old ⟨new,deletion⟩ :=
  live_rewritten same (password ▸ .kept) deletion

theorem user_rewritten (commits : Commits cfg request t events) (wrote : .user row ∈ t.writes) :
    (∃ old source, .user old ∈ t.seen ∧ Rewritten cfg request t events old source row) ∨
      ∃ token, Founds cfg request t events token row := by
  cases commits with
  | completeRegistration checked hash valid _ verifies user fresh _ writes =>
      simp only [writes,List.mem_cons,reduceCtorEq,Row.user.injEq,List.not_mem_nil,or_false,
        false_or] at wrote
      subst wrote user
      simp only [RegistrationToken.isValid,Bool.and_eq_true,Option.isNone_iff_eq_none] at valid
      exact .inr ⟨_,⟨_,_,_,rfl,hash,verifies⟩,checked.seen,valid.1,⟨rfl,rfl,rfl,rfl⟩,fresh⟩
  | resetPassword _ _ checked hash _ unused live owner _ verifies _ revoked _ _ writes =>
      simp only [writes,List.mem_cons,List.mem_append,reduceCtorEq,Row.user.injEq,List.not_mem_nil,
        or_false,false_or] at wrote
      rcases wrote with hit | rfl
      · obtain ⟨_,_,same⟩ := revoked_row hit revoked.hits
        cases same
      · exact .inl ⟨_,_,live,live_rewritten (by constructor <;> rfl)
          (.reset rfl checked.seen hash owner.symm unused verifies) _⟩
  | changePassword permitted found same verified _ verifies locked target revoked _ _ writes =>
      simp only [writes,List.mem_cons,List.mem_append,reduceCtorEq,rewriteUser,Row.user.injEq,
        List.not_mem_nil,or_false,false_or] at wrote
      rcases wrote with hit | rfl
      · obtain ⟨_,_,same⟩ := revoked_row hit revoked.hits
        cases same
      · subst target
        exact .inl ⟨_,_,locked,rfl,rfl,rfl,fun _ => rfl,same,rfl,rfl,.inr ⟨_,found⟩,
          .changed rfl permitted found same verified verifies⟩
  | deleteUser _ live _ revoked _ _ writes =>
      simp only [writes,List.mem_cons,List.mem_append,reduceCtorEq,Row.user.injEq,List.not_mem_nil,
        or_false,false_or] at wrote
      rcases wrote with hit | rfl
      · obtain ⟨_,_,same⟩ := revoked_row hit revoked.hits
        cases same
      · exact .inl ⟨_,_,live,kept_rewritten (.refl _) rfl _⟩
  | updateUser _ live _ changed _ _ writes =>
      simp only [writes,List.mem_cons,reduceCtorEq,Row.user.injEq,List.not_mem_nil,or_false,
        false_or] at wrote
      subst wrote changed
      exact .inl ⟨_,_,live,kept_rewritten (by constructor <;> rfl) (by rfl) _⟩
  | changeProfilePicture _ live _ _ _ changed _ writes =>
      simp only [writes,List.mem_cons,reduceCtorEq,Row.user.injEq,List.not_mem_nil,or_false,
        false_or] at wrote
      subst wrote changed
      exact .inl ⟨_,_,live,kept_rewritten (by constructor <;> rfl) (by rfl) _⟩
  | deleteProfilePicture _ live _ _ changed _ writes =>
      simp only [writes,List.mem_cons,reduceCtorEq,Row.user.injEq,List.not_mem_nil,or_false,
        false_or] at wrote
      subst wrote changed
      exact .inl ⟨_,_,live,kept_rewritten (by constructor <;> rfl) (by rfl) _⟩
  | revokeUserSessions _ revoked _ writes =>
      simp only [writes,List.mem_cons,reduceCtorEq,false_or] at wrote
      obtain ⟨_,_,same⟩ := revoked_row wrote revoked.hits
      cases same
  | register _ _ _ revoked _ _ _ writes =>
      simp only [writes,List.mem_cons,reduceCtorEq,false_or] at wrote
      obtain ⟨_,_,_,same⟩ := superseded_row wrote revoked.hits
      cases same
  | login _ _ _ _ _ _ _ writes => simp [writes] at wrote
  | refreshAccessToken _ _ _ _ _ _ _ writes => simp [writes] at wrote
  | logout _ _ _ writes => simp [writes] at wrote
  | revokeSession _ _ _ _ writes => simp [writes] at wrote
  | logoutDead _ _ _ writes => simp [writes] at wrote
  | revokeSessionDead _ _ _ _ writes => simp [writes] at wrote
  | recoverPassword _ _ _ _ _ writes => simp [writes] at wrote
  | deleteAbsent _ _ _ writes => simp [writes] at wrote
  | keepNoPicture _ _ _ _ writes => simp [writes] at wrote

end Commits

section Runs
variable {w : World} {Met : List Event → Tx Row Key → List (Entry Row Key) → Prop}
  {log older : List (Entry Row Key)}

-- A user row goes on under its identity, and a deletion is final.
def Continues (old new : UserRow) : Prop :=
  Identity old.user new.user ∧ (old.deletedAt ≠ none → new.deletedAt = old.deletedAt)

theorem Continues.refl (row : UserRow) : Continues row row := ⟨.refl _,fun _ => rfl⟩

theorem Continues.trans (first : Continues a b) (second : Continues b c) : Continues a c := by
  refine ⟨first.1.trans second.1,fun gone => ?_⟩
  have middle := first.2 gone
  exact (second.2 (middle ▸ gone)).trans middle

def Lasting (w : World) (log : List (Entry Row Key)) : Prop :=
  ∀ n ≤ log.length, ∀ old, .user old ∈ schema.rowsAt w.db.base log n →
    ∃ new, .user new ∈ schema.rows w.db.base log ∧ Continues old new

-- One commit. ChangePassword writes back what it read at an earlier point of the
-- log, which the commits in between have not changed either.
theorem commit_continues (unique : schema.Keyed (schema.rows w.db.base older))
    (lasting : Lasting w older) (made : Made cfg w Met older entry request events)
    (member : .user old ∈ schema.rows w.db.base older) :
    ∃ new, .user new ∈ schema.rows w.db.base (entry :: older) ∧ Continues old new := by
  rcases Schema.kept_or_written entry member with kept | ⟨row,wrote,same,there⟩
  · exact ⟨old,kept,.refl old⟩
  · cases row with
    | user new =>
        refine ⟨new,there,?_⟩
        rcases user_rewritten made.commits wrote with ⟨prev,source,seen,rewritten⟩ | ⟨token,founds⟩
        · have equal : schema.key (.user prev) = schema.key (.user old) :=
            Eq.trans (congrArg Key.user rewritten.id.symm) same
          cases unique _ (made.fits.current _ seen) _ member equal
          have source : source.email = old.user.email ∧
              source.emailVerifiedAt = old.user.emailVerifiedAt := by
            rcases rewritten.known with rfl | ⟨position,found⟩
            · exact ⟨rfl,rfl⟩
            · obtain ⟨past,snapshot⟩ := made.selects position _ found
              obtain ⟨latest,present,identity,_⟩ :=
                lasting position past _ (snapshot _ List.mem_cons_self)
              cases unique _ present _ member
                (congrArg Key.user (identity.id.trans rewritten.target))
              exact ⟨identity.email.symm,identity.verified.symm⟩
          exact ⟨⟨rewritten.id,rewritten.email.trans source.1,rewritten.verified.trans source.2,
            rewritten.role,rewritten.created⟩,rewritten.deleted⟩
        · have fresh := (made.fits.owned _ wrote).resolve_left founds.unheld
          exact absurd (Schema.mem_keys.mpr ⟨_,member,same.symm⟩) fresh
    | _ => cases same

theorem history_lasting (keyed : schema.Keyed w.db.base) (apart : schema.Apart w.db.base)
    (history : History cfg w Met log) : Lasting w log := by
  induction history with
  | start => exact fun n _ old member => ⟨old,by simpa [Schema.rowsAt] using member,.refl old⟩
  | @commit older entry request events before made ih =>
      intro n past old member
      rcases Nat.lt_or_eq_of_le past with shorter | rfl
      · have early : n ≤ older.length := Nat.le_of_lt_succ shorter
        rw [Schema.rowsAt_cons early] at member
        obtain ⟨middle,there,first⟩ := ih n early old member
        obtain ⟨new,here,second⟩ :=
          commit_continues (before.chronicle keyed apart).keyed ih made there
        exact ⟨new,here,first.trans second⟩
      · rw [Schema.rowsAt_length] at member
        exact ⟨old,member,.refl old⟩

-- An invitation: who asked for it, and the token it went out with.
def Invited (cfg : Config) (w : World) (log : List (Entry Row Key))
    (token : RegistrationToken) : Prop :=
  ∃ entry ∈ log, ∃ ctx raw,
    w.requests entry.owner = some (.register ctx token.name token.email) ∧
      (entry.owner,.token raw) ∈ w.journal ∧
      token.tokenHash = cfg.hashStr ("regt_" ++ raw) ∧
        (cfg.internalMode = true → require cfg ctx .registerUser = .done ())

theorem register_permitted (commits : Commits cfg (.register ctx name email) t events) :
    cfg.internalMode = true → require cfg ctx .registerUser = .done () := by
  cases commits with
  | register permitted => exact permitted

-- Where a registration token comes from.
theorem token_origin (history : History cfg w Met log)
    (member : .registration token ∈ schema.rows w.db.base log) :
    (∃ old, .registration old ∈ w.db.base ∧ token.tokenHash = old.tokenHash ∧
      token.name = old.name ∧ token.email = old.email) ∨
      Invited cfg w log token := by
  induction history generalizing token with
  | start => exact .inl ⟨token,member,rfl,rfl,rfl⟩
  | @commit older entry request events before made ih =>
      rcases registration_step made.fits made.commits member with ⟨old,there,step⟩ | ⟨_,_,invites⟩
      · have same : token.tokenHash = old.tokenHash ∧ token.name = old.name ∧
            token.email = old.email := by
          cases step <;> exact ⟨rfl,rfl,rfl⟩
        rcases ih there with ⟨given,base,hash,name,email⟩ |
          ⟨inviting,listed,ctx,raw,asked,minted,hash,permitted⟩
        · exact .inl ⟨given,base,same.1.trans hash,same.2.1.trans name,same.2.2.trans email⟩
        · refine .inr ⟨inviting,List.mem_cons_of_mem _ listed,ctx,raw,?_,minted,same.1.trans hash,
            permitted⟩
          rw [same.2.1,same.2.2]
          exact asked
      · obtain ⟨ctx,asked⟩ := invites.asked
        obtain ⟨raw,minted,hash⟩ := invites.minted
        exact .inr ⟨entry,List.mem_cons_self,ctx,raw,asked ▸ made.asked,
          mem_own.mp (made.known minted),hash,register_permitted (asked ▸ made.commits)⟩

-- A row of the start, or one that an invited person has founded.
inductive Founded (cfg : Config) (w : World) (log : List (Entry Row Key))
    (row : UserRow) : Prop where
  | given (base : .user old ∈ w.db.base) (same : Identity old.user row.user)
  | completed (founding : entry ∈ log)
      (asked : w.requests entry.owner = some (.completeRegistration ctx text password))
      (wrote : .user new ∈ entry.tx.writes) (same : Identity new.user row.user)
      (plain : new.user.role = .user) (redeemed : token.tokenHash = cfg.hashStr text)
      (named : new.user.name = token.name ∧ new.user.email = token.email)
      (invited : (∃ old, .registration old ∈ w.db.base ∧ token.tokenHash = old.tokenHash ∧
        token.name = old.name ∧ token.email = old.email) ∨ Invited cfg w log token)

theorem Invited.later (invited : Invited cfg w log token) (entry : Entry Row Key) :
    Invited cfg w (entry :: log) token := by
  obtain ⟨inviting,listed,rest⟩ := invited
  exact ⟨inviting,List.mem_cons_of_mem _ listed,rest⟩

theorem Founded.later (founded : Founded cfg w log old) (same : Identity old.user new.user)
    (entry : Entry Row Key) : Founded cfg w (entry :: log) new := by
  cases founded with
  | given base identity => exact .given base (identity.trans same)
  | completed founding asked wrote identity plain redeemed named invited =>
      exact .completed (List.mem_cons_of_mem _ founding) asked wrote
        (identity.trans same) plain redeemed named
        (invited.imp_right fun known => known.later entry)

theorem history_founded (keyed : schema.Keyed w.db.base) (apart : schema.Apart w.db.base)
    (history : History cfg w Met log) :
    ∀ row, .user row ∈ schema.rows w.db.base log → Founded cfg w log row := by
  induction history with
  | start => exact fun row member => .given member (.refl _)
  | @commit older entry request events before made ih =>
      intro row member
      have unique := (before.chronicle keyed apart).keyed
      have after := Schema.keyed_overlay unique made.fits.keyed
      have continued {old : UserRow} (there : .user old ∈ schema.rows w.db.base older)
          (same : row.user.id = old.user.id) : Founded cfg w (entry :: older) row := by
        obtain ⟨new,here,continues⟩ :=
          commit_continues unique (history_lasting keyed apart before) made there
        cases after _ here _ member (congrArg Key.user (continues.1.id.trans same.symm))
        exact (ih old there).later continues.1 entry
      rcases Schema.mem_rows_cons.mp member with wrote | ⟨old,_⟩
      · rcases user_rewritten made.commits wrote with ⟨old,source,seen,rewritten⟩ | ⟨token,founds⟩
        · exact continued (made.fits.current _ seen) rewritten.id
        · obtain ⟨ctx,text,password,rfl,hash,_⟩ := founds.asked
          obtain ⟨name,email,plain,_⟩ := founds.user
          refine .completed List.mem_cons_self made.asked wrote (.refl _) plain hash ⟨name,email⟩ ?_
          exact (token_origin before (made.fits.current _ founds.locked)).imp_right fun known =>
            known.later entry
      · exact continued old rfl

end Runs

section Results
variable {base : List Row} {s m : Api}

-- No account without an invitation to its address, in internal mode by someone
-- who may invite; and none of them is an administrator.
theorem accounts_invited (keyed : schema.Keyed base) (apart : schema.Apart base)
    (path : Reached (api cfg) (fun _ _ => True) (boot base serial uuids now) s)
    (member : .user row ∈ s.shared.committed) : Founded cfg s.shared s.shared.db.log row := by
  have origin : s.shared.db.base = base := (reached_grows path).base
  exact history_founded (origin ▸ keyed) (origin ▸ apart)
    (reached_commitments keyed apart path) row member

-- Whoever a user row stands for, it stands for them for ever, with the role it was
-- created with: also when a password change writes back a row it had read before.
theorem identity_lasts (keyed : schema.Keyed base) (apart : schema.Apart base)
    (path : Reached (api cfg) (fun _ _ => True) (boot base serial uuids now) m)
    (onward : Reached (api cfg) (fun _ _ => True) m s) (member : .user old ∈ m.shared.committed) :
    ∃ new, .user new ∈ s.shared.committed ∧ Continues old new := by
  have whole := path.trans onward
  have origin : s.shared.db.base = base := (reached_grows whole).base
  have lasting := history_lasting (origin ▸ keyed) (origin ▸ apart)
    (reached_commitments keyed apart whole)
  obtain ⟨newer,log⟩ := (reached_grows onward).log
  refine lasting m.shared.db.log.length (by rw [log,List.length_append]; omega) old ?_
  rw [Schema.rowsAt,(reached_grows onward).base,log,List.length_append,Nat.add_sub_cancel,
    List.drop_left]
  exact member

namespace Controls
open RestApi.Controls

def completed : Schedule :=
  [.spawn 1 (.completeRegistration asAnn "regt_t1" "secret"),.step 1 .runs,
    .step 1 (.plan [.registration 0]),.step 1 .next,.step 1 .runs,.step 1 .runs,
    .step 1 (.value "$secret"),.step 1 (.value "u2"),.step 1 .runs,.step 1 .runs,.step 1 .runs,
    .step 1 (.plan [.registration 0]),.step 1 .next,.step 1 .runs,.step 1 .runs,.step 1 .runs,
    .step 1 .runs]

def bo : UserRow :=
  ⟨⟨"u2","Bo","b@x",some (1000*second),"$secret",none,none,.user,none,1000*second,1000*second⟩,none⟩

theorem accounts_invited_bo : ∃ s, Reached (api config) (fun _ _ => True) init s ∧
    .user bo ∈ s.shared.committed ∧
    Founded config s.shared s.shared.db.log bo := by
  obtain ⟨s,path,member⟩ := run_finds (api config) (fun _ _ => True) init (invited ++ completed)
    (fun s => .user bo ∈ s.shared.committed) (by decide +kernel)
  refine ⟨s,path,member,accounts_invited ?_ ?_ path member⟩
  · simp [Schema.Keyed]
  · simp [Schema.Apart]

def renamed : Schedule :=
  [.spawn 2 (.updateUser asAnn "u1" "Anna" "" "F"),.step 2 .runs,.step 2 (.plan [.user "u1"]),
    .step 2 .next,.step 2 .runs,.step 2 (.plan [.user "u1"]),.step 2 .next,.step 2 .runs,
    .step 2 .runs,.step 2 .runs]

theorem identity_lasts_renamed : ∃ s, Reached (api config) (fun _ _ => True) init s ∧
    .user ⟨ann,none⟩ ∉ s.shared.committed ∧
    ∃ new, .user new ∈ s.shared.committed ∧ Continues ⟨ann,none⟩ new := by
  obtain ⟨s,path,changed⟩ := run_finds (api config) (fun _ _ => True) init renamed
    (fun s => .user ⟨ann,none⟩ ∉ s.shared.committed) (by decide +kernel)
  refine ⟨s,path,changed,identity_lasts ?_ ?_ .refl path List.mem_cons_self⟩
  · simp [Schema.Keyed]
  · simp [Schema.Apart]

end Controls
end Results
end RestApi.Accounts
