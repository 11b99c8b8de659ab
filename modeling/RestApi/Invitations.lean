import RestApi.RowChanges

namespace RestApi.Invitations
open Pool Program RowStore

def registers : Request → Bool
  | .register _ _ _ => true
  | .completeRegistration _ _ _ => true
  | _ => false

-- The emails whose registration tokens a transaction writes, and those it
-- inserts a new token for.
def touched (t : Tx Row Key) : List String := t.writes.filterMap fun
  | .registration token => some token.email
  | _ => none

def invited (t : Tx Row Key) : List String := t.writes.filterMap fun
  | .registration token =>
      if t.holds schema (.registration token.id) then none else some token.email
  | _ => none

-- Register looks for a user and for outstanding tokens, finds no row it could
-- lock, and inserts. A commit is undisturbed if no other transaction that wrote a
-- token of that email has committed since its own transaction began.
def Undisturbed (_ : List Event) (t : Tx Row Key) (older : List (Entry Row Key)) : Prop :=
  ∀ email ∈ invited t, ∀ entry ∈ recent older t.since, email ∉ touched entry.tx

instance (events : List Event) (t : Tx Row Key) (older : List (Entry Row Key)) :
    Decidable (Undisturbed events t older) :=
  inferInstanceAs (Decidable (∀ email ∈ _, _))

def registering (_ : Api) : Act Request Choice Surroundings → Prop
  | .spawn _ request => registers request = true
  | _ => True

def undisturbed (s : Api) : Act Request Choice Surroundings → Prop
  | .spawn _ request => registers request = true
  | .step pid _ =>
      ∀ t ∈ (committing s pid).toList, Undisturbed (own s.shared.journal pid) t s.shared.db.log
  | _ => True

instance : ∀ s act, Decidable (registering s act)
  | _,.spawn _ _ => inferInstanceAs (Decidable (_ = true))
  | _,.step _ _ => inferInstanceAs (Decidable True)
  | _,.kill _ => inferInstanceAs (Decidable True)
  | _,.env _ => inferInstanceAs (Decidable True)

instance : ∀ s act, Decidable (undisturbed s act)
  | _,.spawn _ _ => inferInstanceAs (Decidable (_ = true))
  | _,.step _ _ => inferInstanceAs (Decidable (∀ t ∈ _, _))
  | _,.kill _ => inferInstanceAs (Decidable True)
  | _,.env _ => inferInstanceAs (Decidable True)

def Outstanding (token : RegistrationToken) : Prop := token.usedAt = none ∧ token.revokedAt = none

-- At most one outstanding invitation for an email, and none for a live user's.
structure LatestWins (rows : List Row) : Prop where
  single : ∀ a b, .registration a ∈ rows → .registration b ∈ rows → Outstanding a → Outstanding b →
    a.email = b.email → a = b
  nobody : ∀ token usr, .registration token ∈ rows → Outstanding token → .user usr ∈ rows →
    usr.deletedAt = none → usr.user.email ≠ token.email

section Commits
variable {cfg : Config} {request : Request} {t : Tx Row Key} {events : List Event} {base : List Row}
  {older : List (Entry Row Key)} {entry : Entry Row Key}

theorem mem_touched {token : RegistrationToken}
    (wrote : .registration token ∈ t.writes) : token.email ∈ touched t :=
  List.mem_filterMap.mpr ⟨_,wrote,rfl⟩

theorem mem_invited {token : RegistrationToken} (wrote : .registration token ∈ t.writes)
    (unheld : ¬t.holds schema (.registration token.id)) : token.email ∈ invited t :=
  List.mem_filterMap.mpr ⟨_,wrote,by simp [unheld]⟩

-- A user only comes with the token it was registered by.
theorem user_touches (kind : registers request = true) (commits : Commits cfg request t events)
    (wrote : .user usr ∈ t.writes) : usr.user.email ∈ touched t := by
  cases commits with
  | register _ _ _ revoked _ _ _ writes =>
      simp only [writes,List.mem_cons,reduceCtorEq,false_or] at wrote
      obtain ⟨_,_,_,same⟩ := superseded_row wrote revoked.hits
      cases same
  | completeRegistration _ _ _ _ _ user _ _ writes =>
      simp only [writes,List.mem_cons,reduceCtorEq,Row.user.injEq,List.not_mem_nil,or_false,
        false_or] at wrote
      subst wrote user
      simp [touched,writes]
  | _ => cases kind

-- Register, undisturbed: every outstanding token of the email is revoked, and
-- its user is still unknown.
theorem register_latest (fits : Fits schema base older t)
    (keyed : schema.Keyed (schema.rows base older))
    (commits : Commits cfg (.register ctx name email) t events) (alone : Undisturbed events t older)
    (users : ∀ entry ∈ recent older t.since, ∀ usr, .user usr ∈ entry.tx.writes →
      usr.user.email ∈ touched entry.tx) :
    (∀ token, .registration token ∈ schema.rows base older → Outstanding token →
      token.email = email →
      schema.key (.registration token) ∈ schema.keys t.writes) ∧
    (∀ usr, .user usr ∈ schema.rows base older → usr.deletedAt = none → usr.user.email ≠ email) ∧
    (∀ token, .registration token ∈ t.writes → Outstanding token → token.email = email ∧
      ∀ other, .registration other ∈ t.writes → Outstanding other → other = token) ∧
        ∀ usr, .user usr ∉ t.writes := by
  cases commits with
  | register _ looked nobody revoked _ fresh _ writes =>
      rename_i looking revoking serial _ raw created _ _ _
      have wrote {token : RegistrationToken} (member : .registration token ∈ t.writes) : token =
          ⟨serial,name,email,cfg.hashStr ("regt_" ++ raw),created,created+cfg.registrationTokenTTL,
            none,none⟩ ∨
          ¬Outstanding token := by
        simp only [writes,List.mem_cons,reduceCtorEq,Row.registration.injEq,false_or] at member
        rcases member with new | swept
        · exact .inl new
        · obtain ⟨old,_,_,same⟩ := superseded_row swept revoked.hits
          cases same
          exact .inr fun outstanding => nomatch outstanding.2
      have nouser : ∀ usr, .user usr ∉ t.writes := by
        intro usr member
        simp only [writes,List.mem_cons,reduceCtorEq,false_or] at member
        obtain ⟨_,_,_,same⟩ := superseded_row member revoked.hits
        cases same
      have quiet : ∀ entry ∈ recent older t.since, email ∉ touched entry.tx :=
        alone email (mem_invited
          (by rw [writes]; exact List.mem_cons_of_mem _ List.mem_cons_self) fresh)
      have since {scan : Scan Row Key} (listed : scan ∈ t.done) :
        recent older scan.start ⊆ recent older t.since :=
        recent_mono (fits.scans scan (List.mem_append_right _ listed)).1
      refine ⟨fun token member outstanding same => ?_,fun usr member live same => ?_,
        fun token member outstanding => ?_,nouser⟩
      · have passes : outstandingFor email (.registration token) = true := by
          simp [outstandingFor,same,outstanding.1,outstanding.2]
        rcases revoked.finds fits keyed member passes fun entry recently wrote =>
          quiet entry (since revoked.listed recently) (same ▸ mem_touched wrote) with hit | written
        · refine Schema.mem_keys.mpr ⟨supersede t.began (.registration token),?_,rfl⟩
          rw [writes]
          exact List.mem_cons_of_mem _ (List.mem_cons_of_mem _ (List.mem_map_of_mem hit))
        · exact written
      · have passes : liveUser (fun u => u.email = email) (.user usr) = true := by
          simp [liveUser,live,same]
        rcases looked.finds fits keyed member passes fun entry recently wrote =>
          quiet entry (since looked.listed recently)
            (same ▸ users entry (since looked.listed recently) usr wrote) with hit | written
        · rw [nobody] at hit; cases hit
        · obtain ⟨row,wrote,key⟩ := Schema.mem_keys.mp written
          cases row with
          | user other => exact nouser other wrote
          | _ => cases key
      · rcases wrote member with rfl | revoked
        · exact ⟨rfl,fun other also alive => (wrote also).resolve_right fun dead => dead alive⟩
        · exact absurd outstanding revoked

theorem completeRegistration_uses (fits : Fits schema base older t)
    (commits : Commits cfg (.completeRegistration ctx text password) t events) :
    ∃ token, .registration token ∈ schema.rows base older ∧ Outstanding token ∧
      (∀ usr, .user usr ∈ t.writes → usr.user.email = token.email) ∧
      schema.key (.registration token) ∈ schema.keys t.writes ∧
        ∀ other, .registration other ∈ t.writes → ¬Outstanding other := by
  cases commits with
  | completeRegistration checked hash valid _ _ user _ _ writes =>
      simp only [RegistrationToken.isValid,Bool.and_eq_true,Option.isNone_iff_eq_none] at valid
      refine ⟨_,fits.current _ checked.seen,valid.1,fun usr member => ?_,
        by simp [writes,Schema.keys,schema,Row.key],fun other member => ?_⟩
      · simp only [writes,List.mem_cons,reduceCtorEq,Row.user.injEq,List.not_mem_nil,or_false,
          false_or] at member
        subst member user
        rfl
      · simp only [writes,List.mem_cons,reduceCtorEq,Row.registration.injEq,List.not_mem_nil,
          or_false,false_or] at member
        subst member
        exact fun outstanding => absurd outstanding.1 (Option.some_ne_none _)

end Commits

section Runs
variable {cfg : Config} {w : World} {older : List (Entry Row Key)} {entry : Entry Row Key}

theorem commit_latest (keyed : schema.Keyed w.db.base) (apart : schema.Apart w.db.base)
    (kinds : ∀ pid request, w.requests pid = some request → registers request = true)
    (before : History cfg w Undisturbed older)
    (made : Made cfg w Undisturbed older entry request events)
    (latest : LatestWins (schema.rows w.db.base older)) :
    LatestWins (schema.rows w.db.base (entry :: older)) := by
  have unique := (before.chronicle keyed apart).keyed
  have users : ∀ e ∈ recent older entry.tx.since, ∀ usr, .user usr ∈ e.tx.writes →
      usr.user.email ∈ touched e.tx := by
    intro e recently usr wrote
    obtain ⟨_,_,_,made⟩ := before.made (mem_recent recently)
    exact user_touches (kinds _ _ made.asked) made.commits wrote
  have kind := kinds _ _ made.asked
  have old {row : Row} (member : row ∈ schema.rows w.db.base (entry :: older)) :
      row ∈ entry.tx.writes ∨ row ∈ schema.rows w.db.base older ∧
        schema.key row ∉ schema.keys entry.tx.writes :=
    Schema.mem_rows_cons.mp member
  cases request with
  | register ctx name email =>
      obtain ⟨revoked,unknown,new,nouser⟩ :=
        register_latest made.fits unique made.commits made.met users
      refine ⟨fun a b first second alive alive' same => ?_,
        fun token usr member alive user live same => ?_⟩
      · rcases old first with wrote | ⟨there,untouched⟩
        · obtain ⟨email,only⟩ := new a wrote alive
          rcases old second with also | ⟨there,untouched⟩
          · exact (only b also alive').symm
          · exact absurd (revoked b there alive' (same.symm.trans email)) untouched
        · rcases old second with wrote | ⟨also,_⟩
          · exact absurd (revoked a there alive (same.trans (new b wrote alive').1)) untouched
          · exact latest.single a b there also alive alive' same
      · rcases old user with wrote | ⟨usr_there,_⟩
        · exact nouser usr wrote
        · rcases old member with wrote | ⟨there,_⟩
          · exact unknown usr usr_there live (same.trans (new token wrote alive).1)
          · exact latest.nobody token usr there alive usr_there live same
  | completeRegistration ctx text password =>
      obtain ⟨used,there,outstanding,user,overwritten,none⟩ :=
        completeRegistration_uses made.fits made.commits
      have still {token : RegistrationToken}
          (member : .registration token ∈ schema.rows w.db.base (entry :: older))
          (alive : Outstanding token) : .registration token ∈ schema.rows w.db.base older ∧
          token ≠ used := by
        rcases old member with wrote | ⟨there,untouched⟩
        · exact absurd alive (none token wrote)
        · exact ⟨there,fun same => untouched (same ▸ overwritten)⟩
      refine ⟨fun a b first second alive alive' same => ?_,
        fun token usr member alive row live same => ?_⟩
      · exact latest.single a b (still first alive).1 (still second alive').1 alive alive' same
      · obtain ⟨present,different⟩ := still member alive
        rcases old row with wrote | ⟨usr_there,_⟩
        · exact different (latest.single token used present there alive outstanding
            (same.symm.trans (user usr wrote)))
        · exact latest.nobody token usr present alive usr_there live same
  | _ => cases kind

theorem history_latest (keyed : schema.Keyed w.db.base) (apart : schema.Apart w.db.base)
    (kinds : ∀ pid request, w.requests pid = some request → registers request = true)
    (empty : w.db.base = []) (history : History cfg w Undisturbed log) :
    LatestWins (schema.rows w.db.base log) := by
  induction history with
  | start =>
      rw [Schema.rows,empty]
      exact ⟨fun _ _ absent => (List.not_mem_nil absent).elim,
        fun _ _ absent => (List.not_mem_nil absent).elim⟩
  | commit before made ih => exact commit_latest keyed apart kinds before made ih

-- Latest invitation wins.
theorem latest_invitation_wins {s : Api}
    (path : Reached (api cfg) undisturbed (boot [] serial uuids now) s) :
    LatestWins s.shared.committed := by
  have keyed : schema.Keyed [] := fun _ absent => (List.not_mem_nil absent).elim
  have apart : schema.Apart [] := fun _ absent => (List.not_mem_nil absent).elim
  have origin : s.shared.db.base = [] := (reached_grows path).base
  have kinds := reached_requests (fun request => registers request = true)
    (fun _ _ _ allowed => allowed) path
  have history := reached_history keyed apart
    (fun _ _ _ t allowed running => allowed t (by simp [running])) path
  exact history_latest (origin ▸ keyed) (origin ▸ apart) kinds origin history

end Runs

namespace Controls
open RestApi.Controls

def revokes (pid : Pid) (name : String) (tokens : List Key) : Schedule :=
  [.spawn pid (.register ⟨none,none⟩ name "b@x"),.step pid .runs,.step pid (.plan []),
    .step pid .runs,.step pid (.plan tokens)] ++ tokens.map (fun _ => .step pid .next) ++
    [.step pid .runs]

def invites (pid : Pid) (raw : String) : Schedule :=
  [.step pid (.value raw),.step pid .runs,.step pid .runs,.step pid .runs,.step pid .runs,
    .step pid .runs]

abbrev init : Api := boot [] 0 [] (1000*second)

def invitation (serial : Nat) (name raw : String) : RegistrationToken :=
  ⟨serial,name,"b@x","#regt_" ++ raw,1000*second,1900*second,none,none⟩

-- Two invitations at once: neither sees the other's token.
theorem two_outstanding : ∃ s, Reached (api config) registering init s ∧
    .registration (invitation 0 "Bob" "t0") ∈ s.shared.committed ∧
    .registration (invitation 2 "Rob" "t1") ∈ s.shared.committed ∧
      ¬LatestWins s.shared.committed := by
  obtain ⟨s,path,one,two⟩ := run_finds (api config) registering init
    (revokes 0 "Bob" [] ++ revokes 1 "Rob" [] ++ invites 0 "t0" ++ invites 1 "t1")
    (fun s => .registration (invitation 0 "Bob" "t0") ∈ s.shared.committed ∧
      .registration (invitation 2 "Rob" "t1") ∈ s.shared.committed)
    (by decide +kernel)
  refine ⟨s,path,one,two,fun latest => ?_⟩
  have same := latest.single _ _ one two ⟨rfl,rfl⟩ ⟨rfl,rfl⟩ rfl
  simp [invitation] at same

-- One after the other: the second revokes the first.
theorem latest_invitation_wins_again : ∃ s, Reached (api config) undisturbed init s ∧
    .registration (invitation 2 "Rob" "t1") ∈ s.shared.committed ∧
      LatestWins s.shared.committed := by
  obtain ⟨s,path,there⟩ := run_finds (api config) undisturbed init
    (revokes 0 "Bob" [] ++ invites 0 "t0" ++ revokes 1 "Rob" [.registration 0] ++ invites 1 "t1")
    (fun s => .registration (invitation 2 "Rob" "t1") ∈ s.shared.committed) (by decide +kernel)
  exact ⟨s,path,there,latest_invitation_wins path⟩

end Controls
end RestApi.Invitations
