import RestApi.RowChanges

namespace RestApi.RefreshTokens
open Pool Program RowStore

-- A fresh token is none whose hash a session had from the start.
def freshly (cfg : Config) (base : List Row) (s : Api) : Act Request Choice Surroundings → Prop
  | .step pid (.value raw) =>
      drawing s pid = true → ∀ row ∈ base, sessionWithHash (cfg.hashStr ("rt_" ++ raw)) row = false
  | _ => True

instance (cfg : Config) (base : List Row) : ∀ s act, Decidable (freshly cfg base s act)
  | _,.spawn _ _ => inferInstanceAs (Decidable True)
  | _,.step _ (.value _) => inferInstanceAs (Decidable (_ = true → _))
  | _,.step _ .runs => inferInstanceAs (Decidable True)
  | _,.step _ .lost => inferInstanceAs (Decidable True)
  | _,.step _ .fails => inferInstanceAs (Decidable True)
  | _,.step _ (.violates _) => inferInstanceAs (Decidable True)
  | _,.step _ (.plan _) => inferInstanceAs (Decidable True)
  | _,.step _ .next => inferInstanceAs (Decidable True)
  | _,.kill _ => inferInstanceAs (Decidable True)
  | _,.env _ => inferInstanceAs (Decidable True)

def issuesTokens : Request → Bool
  | .login _ _ _ => true
  | .refreshAccessToken _ _ => true
  | _ => false

-- A commit that hands out a refresh token for a session.
structure Issues (cfg : Config) (w : World) (entry : Entry Row Key) (sessID : UUID)
    (text : String) : Prop where
  asked : ∃ request, w.requests entry.owner = some request ∧ issuesTokens request = true
  minted : ∃ raw, (entry.owner,.token raw) ∈ w.journal ∧ text = "rt_" ++ raw
  stores : ∃ sess, .session sess ∈ entry.tx.writes ∧ sess.id = sessID ∧
    sess.refreshTokenHash = cfg.hashStr text

-- The last token the commits of a log have handed out for a session.
def LastIssued (cfg : Config) (w : World) (log : List (Entry Row Key)) (sessID : UUID)
    (text : String) : Prop :=
  ∃ newer entry older, log = newer ++ entry :: older ∧ Issues cfg w entry sessID text ∧
    ∀ later ∈ newer, ∀ other, ¬Issues cfg w later sessID other

-- A commit in which a refresh token was accepted.
def Accepts (w : World) (entry : Entry Row Key) (text : String) : Prop :=
  ∃ ctx, w.requests entry.owner = some (.refreshAccessToken ctx text)

section Commits
variable {cfg : Config} {t : Tx Row Key} {events : List Event}

theorem refreshed (commits : Commits cfg (.refreshAccessToken ctx text) t events) :
    ∃ old new raw, .session old ∈ t.seen ∧ old.refreshTokenHash = cfg.hashStr text ∧
      old.revokedAt = none ∧ .token raw ∈ events ∧
      t.writes = [.session new] ∧ new.id = old.id ∧
        new.refreshTokenHash = cfg.hashStr ("rt_" ++ raw) := by
  cases commits with
  | refreshAccessToken checked hash _ unrevoked _ _ minted writes =>
      exact ⟨_,_,_,checked.seen,hash,unrevoked,minted,writes,rfl,rfl⟩

-- A session row is written with the hash it had or with that of a new token.
theorem hash_written (commits : Commits cfg request t events) (wrote : .session sess ∈ t.writes) :
    (∃ old, .session old ∈ t.seen ∧ old.id = sess.id ∧
      old.refreshTokenHash = sess.refreshTokenHash) ∨
      issuesTokens request = true ∧ ∃ raw, .token raw ∈ events ∧
        sess.refreshTokenHash = cfg.hashStr ("rt_" ++ raw) := by
  rcases session_written commits wrote with ⟨old,seen,step⟩ | ⟨_,_,_,_,rfl,_,created⟩
  · cases step with
    | kept => exact .inl ⟨_,seen,rfl,rfl⟩
    | rotated asked _ _ minted => exact .inr ⟨by rw [asked]; rfl,_,minted,rfl⟩
    | revoked => exact .inl ⟨_,seen,rfl,rfl⟩
  · exact .inr ⟨rfl,created.minted⟩

theorem same_session {rows : List Row} {a b : Session} (keyed : schema.Keyed rows)
    (apart : schema.Apart rows) (first : .session a ∈ rows) (also : .session b ∈ rows)
    (same : a.refreshTokenHash = b.refreshTokenHash) : a = b := by
  by_cases id : a.id = b.id
  · exact Row.session.inj (keyed _ first _ also (congrArg Key.session id))
  · have clear := apart _ first _ also fun equal => id (Key.session.inj equal)
    simp [schema,Row.violation,same] at clear

end Commits

-- What a law about refresh tokens may assume of the world it is about.
structure Fresh (cfg : Config) (w : World) : Prop where
  keyed : schema.Keyed w.db.base
  apart : schema.Apart w.db.base
  collides : Function.Injective cfg.hashStr
  tokens : ∀ p q raw, (p,.token raw) ∈ w.journal → (q,.token raw) ∈ w.journal → p = q
  base : ∀ pid raw, (pid,.token raw) ∈ w.journal →
    ∀ row ∈ w.db.base, sessionWithHash (cfg.hashStr ("rt_" ++ raw)) row = false

section Runs
variable {cfg : Config} {w : World} {Met : List Event → Tx Row Key → List (Entry Row Key) → Prop}
  {older newer log : List (Entry Row Key)} {entry former latter : Entry Row Key} {hash : String}

-- A hash that was there from the start or belongs to a token some commit drew.
def Known (cfg : Config) (w : World) (log : List (Entry Row Key)) (hash : String) : Prop :=
  (∃ row ∈ w.db.base, sessionWithHash hash row = true) ∨
    ∃ maker ∈ log, ∃ raw, (maker.owner,.token raw) ∈ w.journal ∧ hash = cfg.hashStr ("rt_" ++ raw)

theorem Known.later (known : Known cfg w older hash) : Known cfg w (entry :: older) hash :=
  known.imp_right fun ⟨maker,there,rest⟩ => ⟨maker,List.mem_cons_of_mem _ there,rest⟩

theorem hash_known (history : History cfg w Met log)
    (member : .session sess ∈ schema.rows w.db.base log) :
    Known cfg w log sess.refreshTokenHash := by
  induction history generalizing sess with
  | start => exact .inl ⟨_,member,by simp [sessionWithHash]⟩
  | @commit older entry request events before made ih =>
      rcases Schema.mem_rows_cons.mp member with wrote | ⟨there,_⟩
      · rcases hash_written made.commits wrote with ⟨old,seen,_,same⟩ | ⟨_,raw,minted,fresh⟩
        · exact same ▸ (ih (made.fits.current _ seen)).later
        · exact .inr ⟨entry,List.mem_cons_self,raw,mem_own.mp (made.known minted),fresh⟩
      · exact (ih there).later

-- A token drawn for a commit is none that was known before.
theorem fresh_unknown (fresh : Fresh cfg w) (made : Made cfg w Met older entry request events)
    (drawn : (entry.owner,.token raw) ∈ w.journal) :
    ¬Known cfg w older (cfg.hashStr ("rt_" ++ raw)) := by
  rintro (⟨row,member,same⟩ | ⟨maker,there,other,noted,same⟩)
  · rw [fresh.base _ _ drawn row member] at same
    cases same
  · have equal : raw = other := (String.append_right_inj _).mp (fresh.collides same)
    subst equal
    exact made.once maker there (fresh.tokens _ _ _ noted drawn)

-- A known hash that no session has any more.
def Spent (cfg : Config) (w : World) (log : List (Entry Row Key)) (hash : String) : Prop :=
  Known cfg w log hash ∧ ∀ sess, .session sess ∈ schema.rows w.db.base log →
    sess.refreshTokenHash ≠ hash

theorem refresh_spends (fresh : Fresh cfg w) (before : History cfg w Met older)
    (made : Made cfg w Met older entry (.refreshAccessToken ctx text) events) :
    Spent cfg w (entry :: older) (cfg.hashStr text) := by
  obtain ⟨old,new,raw,seen,hash,_,minted,writes,id,rotated⟩ := refreshed made.commits
  have chronicle := before.chronicle fresh.keyed fresh.apart
  have there := made.fits.current _ seen
  have known : Known cfg w older (cfg.hashStr text) := hash ▸ hash_known before there
  refine ⟨known.later,fun sess member same => ?_⟩
  rcases Schema.mem_rows_cons.mp member with wrote | ⟨also,untouched⟩
  · rw [writes,List.mem_singleton] at wrote
    cases wrote
    rw [← same,rotated] at known
    exact fresh_unknown fresh made (mem_own.mp (made.known minted)) known
  · cases same_session chronicle.keyed chronicle.apart also there (same.trans hash.symm)
    refine untouched (Schema.mem_keys.mpr ⟨.session new,?_,congrArg Key.session id⟩)
    rw [writes]
    exact List.mem_singleton_self _

theorem made_spent (fresh : Fresh cfg w) (made : Made cfg w Met older entry request events)
    (spent : Spent cfg w older hash) : Spent cfg w (entry :: older) hash := by
  refine ⟨spent.1.later,fun sess member same => ?_⟩
  rcases Schema.mem_rows_cons.mp member with wrote | ⟨there,_⟩
  · rcases hash_written made.commits wrote with ⟨old,seen,_,kept⟩ | ⟨_,raw,minted,rotated⟩
    · exact spent.2 old (made.fits.current _ seen) (kept.trans same)
    · have known := spent.1
      rw [← same,rotated] at known
      exact fresh_unknown fresh made (mem_own.mp (made.known minted)) known
  · exact spent.2 sess there same

theorem history_spent (fresh : Fresh cfg w) (history : History cfg w Met (newer ++ older))
    (spent : Spent cfg w older hash) : Spent cfg w (newer ++ older) hash := by
  induction newer with
  | nil => exact spent
  | cons entry rest ih =>
      cases history with
      | commit before made => exact made_spent fresh made (ih before)

-- No token is accepted a second time.
theorem accepted_later (fresh : Fresh cfg w)
    (history : History cfg w Met (newer ++ latter :: older)) (early : former ∈ older)
    (one : Accepts w former text) : ¬Accepts w latter text := by
  rintro ⟨ctx,asked⟩
  obtain ⟨ctx',asked'⟩ := one
  obtain ⟨before,request,events,made⟩ := history.split
  cases made.asked.symm.trans asked
  obtain ⟨middle,oldest,rfl⟩ := List.append_of_mem early
  obtain ⟨origin,request,events,made'⟩ := before.split
  cases made'.asked.symm.trans asked'
  have whole : History cfg w Met (middle ++ former :: oldest) := before
  have spent := history_spent fresh whole (refresh_spends fresh origin made')
  obtain ⟨old,_,_,seen,hash,_⟩ := refreshed made.commits
  exact spent.2 old (made.fits.current _ seen) hash

-- The token a session row has is the last one handed out for it.
def UpToDate (cfg : Config) (w : World) (log : List (Entry Row Key)) (sess : Session) : Prop :=
  (∃ text, LastIssued cfg w log sess.id text ∧ sess.refreshTokenHash = cfg.hashStr text) ∨
    (∃ old, .session old ∈ w.db.base ∧ old.id = sess.id ∧
      old.refreshTokenHash = sess.refreshTokenHash) ∧
      ∀ entry ∈ log, ∀ text, ¬Issues cfg w entry sess.id text

theorem UpToDate.later (current : UpToDate cfg w older old) (id : old.id = sess.id)
    (hash : old.refreshTokenHash = sess.refreshTokenHash)
    (silent : ∀ text, ¬Issues cfg w entry sess.id text) : UpToDate cfg w (entry :: older) sess := by
  rw [UpToDate,id,hash] at current
  rcases current with ⟨text,⟨newer,maker,oldest,rfl,issues,none⟩,same⟩ | ⟨origin,none⟩
  · exact .inl ⟨text,⟨entry :: newer,maker,oldest,rfl,issues,List.forall_mem_cons.mpr ⟨silent,none⟩⟩,
      same⟩
  · exact .inr ⟨origin,List.forall_mem_cons.mpr ⟨silent,none⟩⟩

theorem history_upToDate (fresh : Fresh cfg w) (history : History cfg w Met log)
    (member : .session sess ∈ schema.rows w.db.base log) : UpToDate cfg w log sess := by
  induction history generalizing sess with
  | start => exact .inr ⟨⟨sess,member,rfl,rfl⟩,fun _ absent => (List.not_mem_nil absent).elim⟩
  | @commit older entry request events before made ih =>
      have after := ((History.commit before made).chronicle fresh.keyed fresh.apart).keyed
      -- A commit that hands out a token for this session leaves its hash there.
      have silent (known : Known cfg w older sess.refreshTokenHash)
          (text : String) : ¬Issues cfg w entry sess.id text := by
        rintro ⟨_,⟨raw,drawn,rfl⟩,stored,wrote,id,hash⟩
        cases after _ (Schema.mem_rows_cons.mpr (.inl wrote)) _ member (congrArg Key.session id)
        rw [hash] at known
        exact fresh_unknown fresh made drawn known
      rcases Schema.mem_rows_cons.mp member with wrote | ⟨there,_⟩
      · rcases hash_written made.commits wrote with ⟨old,seen,id,same⟩ | ⟨kind,raw,minted,rotated⟩
        · have there := made.fits.current _ seen
          exact (ih there).later id same (silent (same ▸ hash_known before there))
        · refine .inl ⟨"rt_" ++ raw,⟨[],entry,older,rfl,
            ⟨⟨request,made.asked,kind⟩,⟨raw,?_,rfl⟩,sess,wrote,rfl,rotated⟩,?_⟩,rotated⟩
          · exact mem_own.mp (made.known minted)
          · exact fun _ absent => (List.not_mem_nil absent).elim
      · exact (ih there).later rfl rfl (silent (hash_known before there))

-- No refresh goes through on a session that was revoked before.
theorem revoked_refuses (keyed : schema.Keyed w.db.base) (apart : schema.Apart w.db.base)
    (history : History cfg w Met (newer ++ older))
    (member : .session old ∈ schema.rows w.db.base older) (revoked : old.revokedAt ≠ none)
    (recent : entry ∈ newer) (accepts : Accepts w entry text) :
    ∀ sess, .session sess ∈ entry.tx.writes → sess.id ≠ old.id := by
  intro sess wrote same
  obtain ⟨ctx,asked⟩ := accepts
  obtain ⟨newest,middle,rfl⟩ := List.append_of_mem recent
  obtain ⟨before,request,events,made⟩ := History.split (by simpa using history)
  cases made.asked.symm.trans asked
  obtain ⟨prev,new,_,seen,_,alive,_,writes,id,_⟩ := refreshed made.commits
  rw [writes,List.mem_singleton] at wrote
  cases wrote
  obtain ⟨last,there,id',_,_,still⟩ := session_kept keyed apart before member
  cases (before.chronicle keyed apart).keyed _ there _ (made.fits.current _ seen)
    (congrArg Key.session (id'.trans (same.symm.trans id)))
  exact revoked (still alive)

end Runs

-- What a run from `before` to `now` has made of the refresh tokens and sessions.
structure RefreshSafe (cfg : Config) (before now : Api) : Prop where
  -- What RefreshAccessToken has answered with success has been committed.
  succeeds : ∀ pid ctx text value, now.threads pid = some (.done value) →
    now.shared.requests pid = some (.refreshAccessToken ctx text) →
      ∃ entry ∈ now.shared.db.log, entry.owner = pid
  redeems : ∀ newer entry older text, now.shared.db.log = newer ++ entry :: older →
    Accepts now.shared entry text → ∃ old new, .session old ∈ schema.rows now.shared.db.base older ∧
    cfg.hashStr text = old.refreshTokenHash ∧ old.revokedAt = none ∧ new.id = old.id ∧
    entry.tx.writes = [.session new]
  once : ∀ former ∈ now.shared.db.log, ∀ latter ∈ now.shared.db.log, ∀ text,
    Accepts now.shared former text → Accepts now.shared latter text → former = latter
  latest : ∀ newer older sess text, now.shared.db.log = newer ++ older →
    .session sess ∈ schema.rows now.shared.db.base older →
    cfg.hashStr text = sess.refreshTokenHash → LastIssued cfg now.shared older sess.id text ∨
    (∃ old, .session old ∈ now.shared.db.base ∧ old.id = sess.id ∧
    old.refreshTokenHash = cfg.hashStr text) ∧
    ∀ entry ∈ older, ∀ other, ¬Issues cfg now.shared entry sess.id other
  keeps : ∀ old, .session old ∈ before.shared.committed →
    ∃ new, .session new ∈ now.shared.committed ∧ new.id = old.id ∧ new.userID = old.userID ∧
    new.expiresAt = old.expiresAt ∧ (old.revokedAt ≠ none → new.revokedAt ≠ none)
  refuses : ∀ old, .session old ∈ before.shared.committed → old.revokedAt ≠ none →
    ∀ entry ∈ now.shared.db.log, entry ∉ before.shared.db.log →
      ∀ text, Accepts now.shared entry text → ∀ new, .session new ∈ entry.tx.writes →
      new.id ≠ old.id

theorem refresh_tokens_redeemed_once {base : List Row} {s later : Api} (keyed : schema.Keyed base)
    (apart : schema.Apart base) (collides : Function.Injective cfg.hashStr)
    (path : Reached (api cfg) (freshly cfg base) (boot base serial uuids now) s)
    (onward : Reached (api cfg) (freshly cfg base) s later) : RefreshSafe cfg s later := by
  have whole := path.trans onward
  have origin : later.shared.db.base = base := (reached_grows whole).base
  have grown := reached_grows onward
  have history := reached_commitments keyed apart whole
  have valid := (reached_contract keyed apart whole).1
  have fresh : Fresh cfg later.shared := by
    refine ⟨origin ▸ keyed,origin ▸ apart,collides,valid.tokens,?_⟩
    rw [origin]
    exact reached_tokens (fun raw => ∀ row ∈ base, sessionWithHash
      (cfg.hashStr ("rt_" ++ raw)) row = false) (fun _ _ _ allowed => allowed) whole
  obtain ⟨newer,log⟩ := grown.log
  have continued : Commitments cfg later.shared (newer ++ s.shared.db.log) := log ▸ history
  have here : later.shared.committed = schema.rows later.shared.db.base
    (newer ++ s.shared.db.log) := by rw [← log]; rfl
  have there : s.shared.committed = schema.rows later.shared.db.base s.shared.db.log := by
    rw [grown.base]; rfl
  refine ⟨?_,?_,?_,?_,?_,?_⟩
  · exact fun pid ctx text value finished asked =>
      reached_answered keyed apart whole finished asked nofun
  · intro newer entry older text log accepts
    obtain ⟨ctx,asked⟩ := accepts
    obtain ⟨before,request,events,made⟩ := History.split (log ▸ history)
    cases made.asked.symm.trans asked
    obtain ⟨old,new,_,seen,hash,alive,_,writes,id,_⟩ := refreshed made.commits
    exact ⟨old,new,made.fits.current _ seen,hash.symm,alive,id,writes⟩
  · intro former one latter two text accepts accepts'
    rcases history.ordered one two with equal | ⟨newer,older,log,early⟩ | ⟨newer,older,log,early⟩
    · exact equal
    · exact absurd accepts' (accepted_later fresh (log ▸ history) early accepts)
    · exact absurd accepts (accepted_later fresh (log ▸ history) early accepts')
  · intro newer older sess text log member hash
    have past : Commitments cfg later.shared older := by
      rw [log] at history
      exact history.drop
    rcases history_upToDate fresh past member with ⟨issued,last,same⟩ | ⟨⟨old,first,id,same⟩,none⟩
    · cases collides (hash.trans same)
      exact .inl last
    · exact .inr ⟨⟨old,first,id,same.trans hash.symm⟩,none⟩
  · intro old member
    obtain ⟨new,after,id,owner,expiry,alive⟩ :=
      session_kept fresh.keyed fresh.apart continued (there ▸ member)
    exact ⟨new,here ▸ after,id,owner,expiry,fun revoked unrevoked => revoked (alive unrevoked)⟩
  · intro old member revoked entry listed recent text accepts
    rw [log] at listed
    have recently := (List.mem_append.mp listed).resolve_right recent
    exact revoked_refuses fresh.keyed fresh.apart continued
      (there ▸ member) revoked recently accepts

namespace Controls
open RestApi.Controls

def refreshed (pid : Pid) (text raw : String) : Schedule :=
  [.spawn pid (.refreshAccessToken asAnn text),.step pid .runs,.step pid (.plan [.session "s1"]),
    .step pid .next,.step pid .runs,.step pid .runs,.step pid (.plan [.user "u1"]),.step pid .next,
    .step pid .runs,.step pid .runs,.step pid .runs,.step pid (.value raw),.step pid .runs,
    .step pid (.plan [.session "s1"]),.step pid .next,.step pid .runs,.step pid .runs]

-- Two refreshes in a row, each with the token of the one before.
theorem refresh_tokens_redeemed_once_twice :
    ∃ s, Reached (api config) (freshly config members) signedIn s ∧
    .session {session with refreshTokenHash := "#rt_t3",accessedAt := 1000*second} ∈
      s.shared.committed ∧ RefreshSafe config s s := by
  obtain ⟨s,path,rotated⟩ := run_finds (api config) (freshly config members) signedIn
    (refreshed 0 "rt_t1" "t2" ++ refreshed 1 "rt_t2" "t3")
    (fun s => .session {session with refreshTokenHash := "#rt_t3",accessedAt := 1000*second} ∈
      s.shared.committed)
      (by decide +kernel)
  refine ⟨s,path,rotated,refresh_tokens_redeemed_once ?_ ?_ ?_ path .refl⟩
  · simp [Schema.Keyed,schema,Row.key]
  · simp [Schema.Apart,schema,Row.key,Row.violation]
  · intro a b same
    exact (String.append_right_inj _).mp same

end Controls
end RestApi.RefreshTokens
