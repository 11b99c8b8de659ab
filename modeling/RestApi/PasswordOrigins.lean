import RestApi.Accounts

namespace RestApi.PasswordOrigins
open Pool Program RowStore Accounts

section Runs
variable {cfg : Config} {w : World} {Met : List Event → Tx Row Key → List (Entry Row Key) → Prop}
  {log : List (Entry Row Key)}

-- A recovery token of the start, or one a request for the address of its user has stored.
def Sent (cfg : Config) (w : World) (log : List (Entry Row Key)) (token : PasswordRecoveryToken)
    (email : String) : Prop :=
  ∃ entry ∈ log, ∃ ctx raw, w.requests entry.owner = some (.recoverPassword ctx email) ∧
    (entry.owner,.token raw) ∈ w.journal ∧ token.tokenHash = cfg.hashStr raw

def Linked (cfg : Config) (w : World) (log : List (Entry Row Key))
    (token : PasswordRecoveryToken) : Prop :=
  (∃ old, .recovery old ∈ w.db.base ∧ token.tokenHash = old.tokenHash ∧ token.userID = old.userID) ∨
    ∃ row, .user row ∈ schema.rows w.db.base log ∧ row.user.id = token.userID ∧
      Sent cfg w log token row.user.email

theorem Sent.later (sent : Sent cfg w log token email) (entry : Entry Row Key) :
    Sent cfg w (entry :: log) token email := by
  obtain ⟨sending,listed,rest⟩ := sent
  exact ⟨sending,List.mem_cons_of_mem _ listed,rest⟩

theorem recovers_live (commits : Commits cfg request t events)
    (asked : request = .recoverPassword ctx address) (wrote : .recovery token ∈ t.writes) :
    ∃ usr, .user ⟨usr,none⟩ ∈ t.seen ∧ usr.id = token.userID ∧ usr.email = address := by
  subst asked
  cases commits with
  | recoverPassword live email _ _ _ writes =>
      simp only [writes,List.mem_cons,reduceCtorEq,Row.recovery.injEq,List.not_mem_nil,or_false,
        false_or] at wrote
      subst wrote
      exact ⟨_,live,rfl,email⟩

-- Where a recovery token comes from. The row of its user goes on under the same address.
theorem history_linked (keyed : schema.Keyed w.db.base) (apart : schema.Apart w.db.base)
    (history : History cfg w Met log) :
    ∀ token, .recovery token ∈ schema.rows w.db.base log → Linked cfg w log token := by
  induction history with
  | start => exact fun token member => .inl ⟨token,member,rfl,rfl⟩
  | @commit older entry request events before made ih =>
      intro token member
      have continued {row : UserRow} (there : .user row ∈ schema.rows w.db.base older) :=
        commit_continues (before.chronicle keyed apart).keyed
          (history_lasting keyed apart before) made there
      have kept {old : PasswordRecoveryToken} (there : .recovery old ∈ schema.rows w.db.base older)
          (hash : token.tokenHash = old.tokenHash) (owner : token.userID = old.userID) :
          Linked cfg w (entry :: older) token := by
        rcases ih old there with ⟨given,base,first,second⟩ | ⟨row,present,id,sent⟩
        · exact .inl ⟨given,base,hash.trans first,owner.trans second⟩
        · obtain ⟨new,here,identity,_⟩ := continued present
          obtain ⟨sending,listed,ctx,raw,asked,minted,same⟩ := sent.later entry
          refine .inr ⟨new,here,(identity.id.trans id).trans owner.symm,?_⟩
          rw [identity.email]
          exact ⟨sending,listed,ctx,raw,asked,minted,hash.trans same⟩
      rcases Schema.mem_rows_cons.mp member with wrote | ⟨old,_⟩
      · rcases recovery_written made.commits wrote with ⟨old,seen,step⟩ | issued
        · have there := made.fits.current _ seen
          cases step with
          | kept => exact kept there rfl rfl
          | used _ _ _ => exact kept there rfl rfl
        · obtain ⟨ctx,address,asked⟩ := issued.asked
          obtain ⟨raw,minted,hash⟩ := issued.minted
          obtain ⟨usr,live,id,email⟩ := recovers_live made.commits asked wrote
          obtain ⟨new,here,identity,_⟩ := continued (made.fits.current _ live)
          refine .inr ⟨new,here,identity.id.trans id,entry,List.mem_cons_self,ctx,raw,?_,
            mem_own.mp (made.known minted),hash⟩
          rw [identity.email,email,← asked]
          exact made.asked
      · exact kept old rfl rfl

-- How the password of a row came to be set: with the row, with an invitation, with
-- a link mailed to the address of the row, or with a password the row had before.
inductive Chosen (cfg : Config) (w : World) (log : List (Entry Row Key)) (row : User) : Prop where
  | given (base : .user old ∈ w.db.base) (id : row.id = old.user.id)
      (same : row.password = old.user.password)
  | invited (setting : entry ∈ log)
      (asked : w.requests entry.owner = some (.completeRegistration ctx text password))
      (verifies : cfg.compareHashAndPassword row.password password = true)
      (hash : token.tokenHash = cfg.hashStr text) (email : token.email = row.email)
      (origin : (∃ old, .registration old ∈ w.db.base ∧ token.tokenHash = old.tokenHash ∧
        token.name = old.name ∧ token.email = old.email) ∨ Invited cfg w log token)
  | reset (setting : entry ∈ log)
      (asked : w.requests entry.owner = some (.resetPassword ctx text password))
      (verifies : cfg.compareHashAndPassword row.password password = true)
      (hash : token.tokenHash = cfg.hashStr text) (owner : token.userID = row.id)
      (origin : (∃ old, .recovery old ∈ w.db.base ∧ token.tokenHash = old.tokenHash ∧
        token.userID = old.userID) ∨ Sent cfg w log token row.email)
  | changed (setting : log = newer ++ entry :: older)
      (asked : w.requests entry.owner = some (.changePassword ctx row.id password newPassword))
      (verifies : cfg.compareHashAndPassword row.password newPassword = true)
      (permitted : requireSelfOr cfg ctx row.id .changePassword = .done ())
      (past : n ≤ older.length) (read : .user ⟨prior,none⟩ ∈ schema.rowsAt w.db.base older n)
      (id : prior.id = row.id)
      (verified : cfg.compareHashAndPassword prior.password password = true)

-- Another version of the row with the same password, one commit later.
theorem Chosen.later (chosen : Chosen cfg w log old) (identity : Identity old new)
    (same : new.password = old.password) (entry : Entry Row Key) :
    Chosen cfg w (entry :: log) new := by
  cases chosen with
  | given base id password => exact .given base (identity.id.trans id) (same.trans password)
  | invited setting asked verifies hash email origin =>
      exact .invited (List.mem_cons_of_mem _ setting) asked (same ▸ verifies) hash
        (email.trans identity.email.symm) (origin.imp_right fun known => known.later entry)
  | reset setting asked verifies hash owner origin =>
      refine .reset (List.mem_cons_of_mem _ setting) asked (same ▸ verifies) hash
        (owner.trans identity.id.symm) ?_
      rw [identity.email]
      exact origin.imp_right fun sent => sent.later entry
  | changed setting asked verifies permitted past read id verified =>
      rw [← identity.id] at asked permitted id
      exact .changed ((congrArg (entry :: ·) setting).trans List.cons_append.symm) asked
        (same ▸ verifies) permitted past read id verified

theorem history_chosen (keyed : schema.Keyed w.db.base) (apart : schema.Apart w.db.base)
    (history : History cfg w Met log) :
    ∀ row, .user row ∈ schema.rows w.db.base log → Chosen cfg w log row.user := by
  induction history with
  | start => exact fun row member => .given member rfl rfl
  | @commit older entry request events before made ih =>
      intro row member
      have unique := (before.chronicle keyed apart).keyed
      rcases Schema.mem_rows_cons.mp member with wrote | ⟨old,_⟩
      · rcases user_rewritten made.commits wrote with ⟨old,source,seen,rewritten⟩ | ⟨token,founds⟩
        · have there := made.fits.current _ seen
          obtain ⟨new,here,identity,_⟩ :=
            commit_continues unique (history_lasting keyed apart before) made there
          cases Schema.keyed_overlay unique made.fits.keyed _ here _ member
            (congrArg Key.user (identity.id.trans rewritten.id.symm))
          generalize same : row.user.password = digest at *
          have rekeyed := rewritten.password
          rw [same] at rekeyed
          cases rekeyed with
          | kept => exact (ih old there).later identity same entry
          | reset asked link hash owner unused verifies =>
              refine .reset List.mem_cons_self (asked ▸ made.asked) (same ▸ verifies) hash
                (owner.trans identity.id.symm) ?_
              refine (history_linked keyed apart before _ (made.fits.current _ link)).imp_right
                fun known => ?_
              obtain ⟨known,present,id,sent⟩ := known
              cases unique _ present _ there (congrArg Key.user (id.trans owner))
              rw [identity.email]
              exact sent.later entry
          | changed asked permitted found id verified verifies =>
              obtain ⟨past,snapshot⟩ := made.selects _ _ found
              rw [← identity.id] at asked permitted id
              exact .changed (List.nil_append _).symm (asked ▸ made.asked)
                (same ▸ verifies) permitted past (snapshot _ List.mem_cons_self) id verified
        · obtain ⟨ctx,text,password,rfl,hash,verifies⟩ := founds.asked
          exact .invited List.mem_cons_self made.asked verifies hash founds.user.2.1.symm
            ((token_origin before (made.fits.current _ founds.locked)).imp_right
              fun known => known.later entry)
      · exact (ih row old).later (.refl _) rfl entry

end Runs

-- Nobody sets a password but with an invitation or a link that went to the address
-- of the account, or with the password the account had.
theorem passwords_chosen {base : List Row} {s : Api} (keyed : schema.Keyed base)
    (apart : schema.Apart base)
    (path : Reached (api cfg) (fun _ _ => True) (boot base serial uuids started) s)
    (member : .user row ∈ s.shared.committed) : Chosen cfg s.shared s.shared.db.log row.user := by
  have origin : s.shared.db.base = base := (reached_grows path).base
  exact history_chosen (origin ▸ keyed) (origin ▸ apart)
    (reached_commitments keyed apart path) row member

namespace Controls
open RestApi.Controls

def recovered : Schedule :=
  [.spawn 0 (.recoverPassword asAnn "a@x"),.step 0 .runs,.step 0 .runs,.step 0 .runs,
    .step 0 (.plan [.user "u1"]),.step 0 .next,.step 0 .runs,.step 0 (.value "t1"),.step 0 .runs,
    .step 0 .runs,.step 0 .runs,.step 0 .runs,.step 0 .runs]

def reset : Schedule :=
  [.spawn 1 (.resetPassword asAnn "t1" "new"),.step 1 .runs,.step 1 (.plan [.recovery 0]),
    .step 1 .next,.step 1 .runs,.step 1 .runs,.step 1 (.plan [.user "u1"]),.step 1 .next,
    .step 1 .runs,.step 1 (.value "$new"),.step 1 .runs,.step 1 (.plan [.recovery 0]),.step 1 .next,
    .step 1 .runs,.step 1 (.plan [.user "u1"]),.step 1 .next,.step 1 .runs,.step 1 (.plan []),
    .step 1 .runs,.step 1 .runs,.step 1 .runs]

-- A password set through a mailed link.
theorem passwords_chosen_reset : ∃ s, Reached (api config) (fun _ _ => True) init s ∧
    .user renewed ∈ s.shared.committed ∧
    Chosen config s.shared s.shared.db.log renewed.user := by
  obtain ⟨s,path,member⟩ := run_finds (api config) (fun _ _ => True) init (recovered ++ reset)
    (fun s => .user renewed ∈ s.shared.committed) (by decide +kernel)
  refine ⟨s,path,member,passwords_chosen ?_ ?_ path member⟩
  · simp [Schema.Keyed]
  · simp [Schema.Apart]

end Controls
end RestApi.PasswordOrigins
