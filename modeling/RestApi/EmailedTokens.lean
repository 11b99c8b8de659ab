import RestApi.RowChanges

namespace RestApi.EmailedTokens
open Pool Program RowStore

-- A commit that consumes a registration token: every token of that name it had
-- locked was valid when the lock was obtained, and it creates one user.
structure Enrolls (cfg : Config) (t : Tx Row Key) (text : String)
    (token : RegistrationToken) : Prop where
  locked : .registration token ∈ t.seen
  hash : token.tokenHash = cfg.hashStr text
  valid : ∀ other stamp, (.registration other,stamp) ∈ t.locked →
    other.tokenHash = cfg.hashStr text → other.isValid stamp = true
  used : ∃ time, .registration {token with usedAt := some time} ∈ t.writes
  user : ∃ usr : User, t.writes.filterMap Row.user? = [usr] ∧ .user ⟨usr,none⟩ ∈ t.writes ∧
    usr.name = token.name ∧ usr.email = token.email ∧ ¬t.holds schema (.user usr.id)

-- A commit that consumes a password recovery token.
structure Resets (cfg : Config) (t : Tx Row Key) (text : String)
    (token : PasswordRecoveryToken) : Prop where
  locked : .recovery token ∈ t.seen
  hash : token.tokenHash = cfg.hashStr text
  valid : ∀ stamp, (.recovery token,stamp) ∈ t.locked → token.usedAt = none ∧
    token.expired stamp = false
  used : ∃ time, .recovery {token with usedAt := some time} ∈ t.writes

-- Hashes of recovery tokens do not collide. The index on them is per user; for
-- registration tokens the index itself sees to it.
def HashesDistinct (rows : List Row) : Prop :=
  ∀ a b, .recovery a ∈ rows → .recovery b ∈ rows → a.tokenHash = b.tokenHash → a.id = b.id

section Commits
variable {cfg : Config} {t : Tx Row Key} {events : List Event} {base : List Row}
  {older : List (Entry Row Key)}

theorem same_registration {a b : RegistrationToken} (keyed : schema.Keyed rows)
    (apart : schema.Apart rows) (first : .registration a ∈ rows) (second : .registration b ∈ rows)
    (same : a.id = b.id ∨ a.tokenHash = b.tokenHash) : a = b := by
  by_cases id : a.id = b.id
  · exact Row.registration.inj (keyed _ first _ second (congrArg Key.registration id))
  · have clear := apart _ first _ second fun equal => id (Key.registration.inj equal)
    simp [schema,Row.violation,same.resolve_left id] at clear

theorem completeRegistration_enrolls (once : t.Once schema) (fits : Fits schema base older t)
    (keyed : schema.Keyed (schema.rows base older)) (apart : schema.Apart (schema.rows base older))
    (commits : Commits cfg (.completeRegistration ctx text password) t events) :
    ∃ token, Enrolls cfg t text token := by
  cases commits with
  | completeRegistration checked hash valid drawn _ user fresh _ writes =>
      rename_i usr _ _ used _ _ _
      obtain ⟨_,stamp,locked,early⟩ := checked
      refine ⟨_,List.mem_map_of_mem locked,hash,?_,⟨used,?_⟩,usr,?_,?_,?_⟩
      · intro other stamp' also named
        cases same_registration keyed apart (fits.current _ (List.mem_map_of_mem also))
          (fits.current _ (List.mem_map_of_mem locked)) (.inr (named.trans hash.symm))
        cases stamp_once once also locked
        simp only [RegistrationToken.isValid,Bool.and_eq_true,decide_eq_true_eq] at valid ⊢
        exact ⟨valid.1,Int.lt_of_le_of_lt early valid.2⟩
      · rw [writes]
        exact List.mem_cons_of_mem _ (List.mem_cons_of_mem _ List.mem_cons_self)
      · rw [writes]
        rfl
      · rw [writes]
        exact List.mem_cons_of_mem _ List.mem_cons_self
      · subst user
        exact ⟨rfl,rfl,fresh⟩

theorem resetPassword_resets (once : t.Once schema)
    (commits : Commits cfg (.resetPassword ctx text password) t events) :
    ∃ token, Resets cfg t text token := by
  cases commits with
  | resetPassword _ _ checked hash unexpired unused _ _ _ _ _ _ _ _ writes =>
      obtain ⟨_,stamp,locked,early⟩ := checked
      refine ⟨_,List.mem_map_of_mem locked,hash,fun stamp' also => ⟨unused,?_⟩,?_⟩
      · cases stamp_once once also locked
        simp only [PasswordRecoveryToken.expired,decide_eq_false_iff_not,Int.not_lt] at unexpired ⊢
        exact Int.le_trans early unexpired
      · exact ⟨_,writes ▸ List.mem_cons_of_mem _ (List.mem_append_right _
          (List.mem_cons_of_mem _ List.mem_cons_self))⟩

end Commits

section Runs
variable {cfg : Config} {w : World} {Met : List Event → Tx Row Key → List (Entry Row Key) → Prop}
  {newer older : List (Entry Row Key)} {former latter : Entry Row Key}

-- The hash of an emailed token and when it was used.
def emailed : Row → Option (String × Option Time)
  | .registration token => some (token.tokenHash,token.usedAt)
  | .recovery token => some (token.tokenHash,token.usedAt)
  | _ => none

-- A token keeps its id and hash, and once used stays used.
def FollowsToken (old new : Row) : Prop := new.key = old.key ∧
  ∀ hash used, emailed old = some (hash,used) → ∃ later, emailed new = some (hash,later) ∧
    (used.isSome → later = used)

theorem token_kept (keyed : schema.Keyed w.db.base) (apart : schema.Apart w.db.base)
    (history : History cfg w Met (newer ++ older)) (member : row ∈ schema.rows w.db.base older) :
    ∃ last ∈ schema.rows w.db.base (newer ++ older), FollowsToken row last := by
  have same (row : Row) : FollowsToken row row :=
    ⟨rfl,fun hash used known => ⟨used,known,fun _ => rfl⟩⟩
  refine history.follows FollowsToken same ?_ ?_ member
  · rintro a b c ⟨key,first⟩ ⟨key',second⟩
    refine ⟨key'.trans key,fun hash used known => ?_⟩
    obtain ⟨middle,there,stays⟩ := first hash used known
    obtain ⟨later,here,stays'⟩ := second hash middle there
    exact ⟨later,here,fun some => (stays' (by rw [stays some]; exact some)).trans (stays some)⟩
  · intro older entry request events row before made member
    have unique := (before.chronicle keyed apart).keyed
    cases row with
    | registration old =>
        obtain ⟨token,there,step⟩ := registration_persists made.fits unique made.commits member
        obtain ⟨id,hash,used⟩ := step.same
        refine ⟨_,there,congrArg Key.registration id,fun _ _ known => ?_⟩
        cases known
        exact ⟨token.usedAt,by rw [emailed,hash],used⟩
    | recovery old =>
        obtain ⟨token,there,step⟩ := recovery_persists made.fits unique made.commits member
        obtain ⟨id,hash,used⟩ := step.same
        refine ⟨_,there,congrArg Key.recovery id,fun _ _ known => ?_⟩
        cases known
        exact ⟨token.usedAt,by rw [emailed,hash],used⟩
    | _ =>
        rcases Schema.kept_or_written entry member with kept | ⟨newer,_,key,there⟩
        · exact ⟨_,kept,same _⟩
        · exact ⟨newer,there,key,nofun⟩

theorem registration_kept (keyed : schema.Keyed w.db.base) (apart : schema.Apart w.db.base)
    (history : History cfg w Met (newer ++ older))
    (member : .registration old ∈ schema.rows w.db.base older) :
    ∃ new, .registration new ∈ schema.rows w.db.base (newer ++ older) ∧ new.id = old.id ∧
      new.tokenHash = old.tokenHash ∧
      (old.usedAt.isSome → new.usedAt = old.usedAt) := by
  obtain ⟨row,there,key,follows⟩ := token_kept keyed apart history member
  obtain ⟨later,known,stays⟩ := follows _ _ rfl
  cases row with
  | registration new =>
      obtain ⟨hash,rfl⟩ := Prod.mk.inj (Option.some.inj known)
      exact ⟨new,there,Key.registration.inj key,hash,stays⟩
  | _ => cases key

theorem recovery_kept (keyed : schema.Keyed w.db.base) (apart : schema.Apart w.db.base)
    (history : History cfg w Met (newer ++ older))
    (member : .recovery old ∈ schema.rows w.db.base older) :
    ∃ new, .recovery new ∈ schema.rows w.db.base (newer ++ older) ∧ new.id = old.id ∧
      new.tokenHash = old.tokenHash ∧
      (old.usedAt.isSome → new.usedAt = old.usedAt) := by
  obtain ⟨row,there,key,follows⟩ := token_kept keyed apart history member
  obtain ⟨later,known,stays⟩ := follows _ _ rfl
  cases row with
  | recovery new =>
      obtain ⟨hash,rfl⟩ := Prod.mk.inj (Option.some.inj known)
      exact ⟨new,there,Key.recovery.inj key,hash,stays⟩
  | _ => cases key

-- What a commit has consumed is consumed for every later one.
theorem enrolled_later (keyed : schema.Keyed w.db.base) (apart : schema.Apart w.db.base)
    (history : History cfg w Met (newer ++ latter :: older)) (early : former ∈ older)
    (one : Enrolls cfg former.tx text a) (two : Enrolls cfg latter.tx other b) :
    ¬(a.id = b.id ∨ text = other) := by
  obtain ⟨before,_,_,made⟩ := history.split
  have chronicle := before.chronicle keyed apart
  obtain ⟨middle,oldest,rfl⟩ := List.append_of_mem early
  obtain ⟨time,wrote⟩ := one.used
  obtain ⟨c,there,id,hash,used⟩ :=
    registration_kept keyed apart before (Schema.mem_rows_cons.mpr (.inl wrote))
  obtain ⟨⟨_,stamp⟩,locked,rfl⟩ := List.mem_map.mp two.locked
  have valid := two.valid b stamp locked two.hash
  intro same
  have equal : c.id = b.id ∨ c.tokenHash = b.tokenHash := by
    rcases same with same | rfl
    · exact .inl (id.trans same)
    · exact .inr (hash.trans (one.hash.trans two.hash.symm))
  cases same_registration chronicle.keyed chronicle.apart there
    (made.fits.current _ two.locked) equal
  simp [RegistrationToken.isValid,used rfl] at valid

theorem reset_later (keyed : schema.Keyed w.db.base) (apart : schema.Apart w.db.base)
    (history : History cfg w Met (newer ++ latter :: older)) (early : former ∈ older)
    (one : Resets cfg former.tx text a) (two : Resets cfg latter.tx other b) : a.id ≠ b.id := by
  obtain ⟨before,_,_,made⟩ := history.split
  obtain ⟨middle,oldest,rfl⟩ := List.append_of_mem early
  obtain ⟨time,wrote⟩ := one.used
  obtain ⟨c,there,id,_,used⟩ :=
    recovery_kept keyed apart before (Schema.mem_rows_cons.mpr (.inl wrote))
  obtain ⟨⟨_,stamp⟩,locked,rfl⟩ := List.mem_map.mp two.locked
  have unused := (two.valid stamp locked).1
  intro same
  cases (before.chronicle keyed apart).keyed _ there _ (made.fits.current _ two.locked)
    (congrArg Key.recovery (id.trans same))
  simp [used rfl] at unused

-- A recovery token a commit had locked has its id and hash in every later state.
theorem recovery_known (keyed : schema.Keyed w.db.base) (apart : schema.Apart w.db.base)
    (history : History cfg w Met log) (member : entry ∈ log)
    (seen : .recovery token ∈ entry.tx.seen) :
    ∃ known, .recovery known ∈ schema.rows w.db.base log ∧ known.id = token.id ∧
      known.tokenHash = token.tokenHash := by
  obtain ⟨newer,older,rfl⟩ := List.append_of_mem member
  obtain ⟨_,_,_,made⟩ := history.split
  have whole : History cfg w Met ((newer ++ [entry]) ++ older) := by simpa using history
  obtain ⟨known,there,id,hash,_⟩ := recovery_kept keyed apart whole (made.fits.current _ seen)
  exact ⟨known,by simpa using there,id,hash⟩

-- Without collisions a token string names one recovery token.
theorem recovery_named (keyed : schema.Keyed w.db.base) (apart : schema.Apart w.db.base)
    (history : History cfg w Met log) (distinct : HashesDistinct (schema.rows w.db.base log))
    (first : former ∈ log) (also : latter ∈ log) (one : .recovery a ∈ former.tx.seen)
    (two : .recovery b ∈ latter.tx.seen) (hash : a.tokenHash = b.tokenHash) : a.id = b.id := by
  obtain ⟨known,there,id,known_hash⟩ := recovery_known keyed apart history first one
  obtain ⟨known',there',id',known_hash'⟩ := recovery_known keyed apart history also two
  rw [← id,← id']
  exact distinct _ _ there there' (by rw [known_hash,known_hash',hash])

end Runs

-- What a run from `before` to `w` has made of the emailed tokens.
structure SingleUse (cfg : Config) (before w : World) : Prop where
  enrolls : ∀ entry ∈ w.db.log, ∀ ctx text password,
    w.requests entry.owner = some (.completeRegistration ctx text password) →
    ∃ token, Enrolls cfg entry.tx text token
  enrolled : ∀ former ∈ w.db.log, ∀ latter ∈ w.db.log, ∀ text other a b,
    Enrolls cfg former.tx text a → Enrolls cfg latter.tx other b → a.id = b.id ∨ text = other →
    former = latter
  resets : ∀ entry ∈ w.db.log, ∀ ctx text password,
    w.requests entry.owner = some (.resetPassword ctx text password) →
    ∃ token, Resets cfg entry.tx text token ∧
    (HashesDistinct w.committed → ∀ other stamp, (.recovery other,stamp) ∈ entry.tx.locked →
    other.tokenHash = cfg.hashStr text → other.usedAt = none ∧ other.expired stamp = false)
  reset : ∀ former ∈ w.db.log, ∀ latter ∈ w.db.log, ∀ text other a b, Resets cfg former.tx text a →
    Resets cfg latter.tx other b → a.id = b.id ∨ HashesDistinct w.committed ∧ text = other →
    former = latter
  registrations : ∀ token, .registration token ∈ before.committed → token.usedAt ≠ none →
    ∃ newer, .registration newer ∈ w.committed ∧ newer.id = token.id ∧ newer.usedAt = token.usedAt
  recoveries : ∀ token, .recovery token ∈ before.committed → token.usedAt ≠ none →
    ∃ newer, .recovery newer ∈ w.committed ∧ newer.id = token.id ∧ newer.usedAt = token.usedAt
  emails : ∀ a b, .user a ∈ w.committed → .user b ∈ w.committed → a.deletedAt = none →
    b.deletedAt = none → a.user.email = b.user.email → a = b

theorem emailed_tokens_single_use {base : List Row} {s later : Api} (keyed : schema.Keyed base)
    (apart : schema.Apart base)
    (path : Reached (api cfg) (fun _ _ => True) (boot base serial uuids now) s)
    (onward : Reached (api cfg) (fun _ _ => True) s later) :
    SingleUse cfg s.shared later.shared := by
  have whole := path.trans onward
  have origin : later.shared.db.base = base := (reached_grows whole).base
  have grown := reached_grows onward
  have history := reached_commitments keyed apart whole
  rw [← origin] at keyed apart
  have chronicle := history.chronicle keyed apart
  have once := (reached_once whole).2
  obtain ⟨newer,log⟩ := grown.log
  have continued : Commitments cfg later.shared (newer ++ s.shared.db.log) := log ▸ history
  have now : later.shared.committed = schema.rows later.shared.db.base
    (newer ++ s.shared.db.log) := by rw [← log]; rfl
  have then' : s.shared.committed = schema.rows later.shared.db.base s.shared.db.log := by
    rw [grown.base]; rfl
  refine ⟨?_,?_,?_,?_,?_,?_,?_⟩
  · intro entry member ctx text password asked
    obtain ⟨newer,older,log⟩ := List.append_of_mem member
    rw [log] at history
    obtain ⟨before,request,events,made⟩ := history.split
    cases made.asked.symm.trans asked
    have earlier := before.chronicle keyed apart
    exact completeRegistration_enrolls (once entry member) made.fits earlier.keyed earlier.apart
      made.commits
  · intro former one latter two text other a b enrolls enrolls' same
    rcases history.ordered one two with equal | ⟨newer,older,log,early⟩ | ⟨newer,older,log,early⟩
    · exact equal
    · exact absurd same (enrolled_later keyed apart (log ▸ history) early enrolls enrolls')
    · exact absurd (same.imp Eq.symm Eq.symm)
        (enrolled_later keyed apart (log ▸ history) early enrolls' enrolls)
  · intro entry member ctx text password asked
    obtain ⟨newer,older,log⟩ := List.append_of_mem member
    obtain ⟨before,request,events,made⟩ := History.split (log ▸ history)
    cases made.asked.symm.trans asked
    obtain ⟨token,resets⟩ := resetPassword_resets (once entry member) made.commits
    refine ⟨token,resets,fun distinct other stamp locked named => ?_⟩
    have seen : .recovery other ∈ entry.tx.seen := List.mem_map_of_mem locked
    have id := recovery_named keyed apart history distinct member member seen resets.locked
      (named.trans resets.hash.symm)
    cases (before.chronicle keyed apart).keyed _ (made.fits.current _ seen) _
      (made.fits.current _ resets.locked) (congrArg Key.recovery id)
    exact resets.valid stamp locked
  · intro former one latter two text other a b resets resets' same
    have equal : a.id = b.id := by
      rcases same with same | ⟨distinct,rfl⟩
      · exact same
      · exact recovery_named keyed apart history distinct one two resets.locked resets'.locked
          (resets.hash.trans resets'.hash.symm)
    rcases history.ordered one two with same | ⟨newer,older,log,early⟩ | ⟨newer,older,log,early⟩
    · exact same
    · exact absurd equal (reset_later keyed apart (log ▸ history) early resets resets')
    · exact absurd equal.symm (reset_later keyed apart (log ▸ history) early resets' resets)
  · intro token member used
    obtain ⟨new,there,id,_,stays⟩ := registration_kept keyed apart continued (then' ▸ member)
    exact ⟨new,now ▸ there,id,stays (Option.isSome_iff_ne_none.mpr used)⟩
  · intro token member used
    obtain ⟨new,there,id,_,stays⟩ := recovery_kept keyed apart continued (then' ▸ member)
    exact ⟨new,now ▸ there,id,stays (Option.isSome_iff_ne_none.mpr used)⟩
  · intro a b first second live live' email
    by_cases id : a.user.id = b.user.id
    · exact Row.user.inj (chronicle.keyed _ first _ second (congrArg Key.user id))
    · have clear := chronicle.apart _ first _ second fun equal => id (Key.user.inj equal)
      simp [schema,Row.violation,live,live',email] at clear

namespace Controls
open RestApi.Controls

abbrev init : Api := boot [.registration invitation] 1 [] (1000*second)

def completed (pid : Pid) : Schedule :=
  [.spawn pid (.completeRegistration ⟨none,none⟩ "regt_t0" "pw"),.step pid .runs,
    .step pid (.plan [.registration 0]),.step pid .next,.step pid .runs,.step pid .runs,
    .step pid (.value "$pw"),.step pid (.value "u2"),.step pid .runs,.step pid .runs,.step pid .runs,
    .step pid (.plan [.registration 0]),.step pid .next,.step pid .runs,.step pid .runs,
    .step pid .runs,.step pid .runs]

-- Bob completes the registration; the token is used from then on.
theorem emailed_tokens_single_use_completed : ∃ s, Reached (api config) (fun _ _ => True) init s ∧
    .registration {invitation with usedAt := some (1000*second)} ∈ s.shared.committed ∧
      SingleUse config s.shared s.shared := by
  obtain ⟨s,path,used⟩ := run_finds (api config) (fun _ _ => True) init (completed 0)
    (fun s => .registration {invitation with usedAt := some (1000*second)} ∈ s.shared.committed)
      (by decide +kernel)
  refine ⟨s,path,used,emailed_tokens_single_use ?_ ?_ path .refl⟩
  · simp [Schema.Keyed]
  · simp [Schema.Apart]

end Controls
end RestApi.EmailedTokens
