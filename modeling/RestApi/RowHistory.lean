import RestApi.RowStore

namespace RestApi.RowStore
open Pool

variable {Row Key : Type}

section Parts
variable {s after : Store Row Key} {pid : Pid}

theorem openTx_parts (opened : s.openTx pid = some after) :
    s.txs pid = none ∧ after = {s with
      txs := Function.update s.txs pid (some (.empty s.now s.log.length)),
      active := pid :: s.active} := by
  unfold Store.openTx at opened
  split at opened
  · cases opened
  · rename_i idle
    exact ⟨idle,(Option.some.inj opened).symm⟩

theorem commit_parts (ran : s.commit pid = some after) :
    ∃ t, s.txs pid = some t ∧ t.scan = none ∧ after =
    {s with log := ⟨pid,s.now,t⟩ :: s.log,txs := Function.update s.txs pid none} := by
  unfold Store.commit at ran
  split at ran
  · rename_i t running
    split at ran
    · rename_i idle
      exact ⟨t,running,Option.isNone_iff_eq_none.mp idle,(Option.some.inj ran).symm⟩
    · cases ran
  · cases ran

theorem finish_parts {got : List Row} (ran : s.finish pid = some (after,got)) :
    ∃ t scan, s.txs pid = some t ∧
    t.scan = some scan ∧ scan.rest = [] ∧ got = scan.hits ∧
      after = s.set pid (t.finished scan) := by
  unfold Store.finish at ran
  split at ran
  · rename_i t running
    split at ran
    · rename_i scan scanning
      simp only [Option.ite_none_right_eq_some,Option.some.injEq,Prod.mk.injEq] at ran
      obtain ⟨spent,rfl,rfl⟩ := ran
      exact ⟨t,scan,running,scanning,List.isEmpty_iff.mp spent,rfl,rfl⟩
    · cases ran
  · cases ran

variable [DecidableEq Key] {S : Schema Row Key}

theorem start_parts (ran : s.start S pid test order = some after) :
    ∃ t, s.txs pid = some t ∧ t.scan = none ∧
    order.Nodup ∧ (∀ k ∈ order, ∃ row, test row = true ∧ S.key row = k) ∧
    (∀ row ∈ s.visible S t, test row = true → S.key row ∈ order) ∧
    after = s.set pid {t with scan := some ⟨s.log.length,test,order,[],[]⟩} := by
  unfold Store.start at ran
  split at ran
  · rename_i t running
    simp only [Option.ite_none_right_eq_some,Option.some.injEq] at ran
    obtain ⟨⟨idle,distinct,within,covers⟩,rfl⟩ := ran
    refine ⟨t,running,Option.isNone_iff_eq_none.mp idle,distinct,?_,?_,rfl⟩
    · intro k member
      obtain ⟨row,inside,same⟩ := Schema.mem_keys.mp (within member)
      exact ⟨row,(List.mem_filter.mp inside).2,same⟩
    · intro row member passes
      exact covers (Schema.mem_keys.mpr ⟨row,List.mem_filter.mpr ⟨member,passes⟩,rfl⟩)
  · cases ran

theorem visit_parts (ran : s.visit S pid change = some after) :
    ∃ t scan k rest row, s.txs pid = some t ∧
    t.scan = some scan ∧ scan.rest = k :: rest ∧ (s.visible S t).find? (S.key · = k) = some row ∧
    s.unlocked S pid k = true ∧ (scan.test row = true → s.permitted S pid t row change = true) ∧
    after = s.set pid (t.visited S scan rest
      ((s.committed S).find? (S.key · = k)) s.now row change) := by
  unfold Store.visit at ran
  split at ran
  · rename_i t running
    split at ran
    · rename_i snapshot test k rest hits misses scanning
      split at ran
      · rename_i row found
        split at ran
        · rename_i ready
          exact ⟨t,_,k,rest,row,running,scanning,rfl,found,ready.1,ready.2,
            (Option.some.inj ran).symm⟩
        · cases ran
      · cases ran
    · cases ran
  · cases ran

theorem insert_parts {make : Nat → Row} {row : Row} (ran : s.insert S pid make = some (after,row)) :
    ∃ t, s.txs pid = some t ∧ t.scan = none ∧ row = make s.serial ∧
      S.key row ∉ S.keys (s.visible S t) ∧
      s.free S pid t row = true ∧ after = {s.set pid (t.put S row) with serial := s.serial+1} := by
  unfold Store.insert at ran
  split at ran
  · rename_i t running
    simp only [Option.ite_none_right_eq_some,Option.some.injEq,Prod.mk.injEq] at ran
    obtain ⟨⟨idle,fresh,free⟩,rfl,rfl⟩ := ran
    exact ⟨t,running,Option.isNone_iff_eq_none.mp idle,rfl,fresh,free,rfl⟩
  · cases ran

end Parts

section Pairs
variable {S : Schema Row Key}

-- Two open transactions cannot get in each other's way.
structure Separate (S : Schema Row Key) (t other : Tx Row Key) : Prop where
  locks : ∀ k, t.holds S k → ¬other.holds S k
  writes : ∀ row ∈ t.writes, ∀ pending ∈ other.writes, S.key row ≠ S.key pending ∧
    S.clash row pending = false

theorem holds_seen {t : Tx Row Key} {k : Key} : t.holds S k ↔ ∃ row ∈ t.seen, S.key row = k :=
  Schema.mem_keys

theorem Separate.symm {t other : Tx Row Key} (apart : Separate S t other) : Separate S other t where
  locks k held also := apart.locks k also held
  writes row member pending wrote := by
    obtain ⟨different,clear⟩ := apart.writes pending wrote row member
    exact ⟨different.symm,S.symm row pending ▸ clear⟩

-- A scan has dealt with a key, or still will.
def Covered (S : Schema Row Key) (t : Tx Row Key) (scan : Scan Row Key) (k : Key) : Prop :=
  k ∈ scan.rest ∨ k ∈ S.keys (scan.hits ++ scan.misses) ∨ k ∈ S.keys t.writes

-- Whichever list the visited version goes to, its key is accounted for.
theorem covered_next {t : Tx Row Key} {scan next : Scan Row Key} {row : Row}
    (rest : scan.rest = S.key row :: next.rest)
    (visited : (next.hits ++ next.misses).Perm (row :: (scan.hits ++ scan.misses)))
    (covered : Covered S t scan k) : Covered S t next k := by
  have sofar : k ∈ S.keys (next.hits ++ next.misses) ↔ k = S.key row ∨
      k ∈ S.keys (scan.hits ++ scan.misses) := by
    rw [Schema.keys,(visited.map S.key).mem_iff,List.map_cons,List.mem_cons,Schema.keys]
  rcases covered with waiting | found | written
  · rw [rest] at waiting
    rcases List.mem_cons.mp waiting with here | later
    · exact .inr (.inl (sofar.mpr (.inl here)))
    · exact .inl later
  · exact .inr (.inl (sofar.mpr (.inr found)))
  · exact .inr (.inr written)

end Pairs

variable [DecidableEq Key] {S : Schema Row Key}

-- What holds of an open transaction against the commits so far, and of a
-- committed one against the commits before it.
structure Fits (S : Schema Row Key) (base : List Row) (log : List (Entry Row Key))
    (t : Tx Row Key) : Prop where
  current : ∀ row ∈ t.seen, row ∈ S.rows base log
  keyed : S.Keyed t.writes
  owned : ∀ row ∈ t.writes, t.holds S (S.key row) ∨ S.key row ∉ S.keys (S.rows base log)
  apart : S.Apart (S.overlay (S.rows base log) t.writes)
  since : t.since ≤ log.length
  scans : ∀ scan ∈ t.scan.toList ++ t.done, t.since ≤ scan.start ∧ scan.start ≤ log.length ∧
    ∀ row ∈ S.rowsAt base log scan.start, scan.test row = true → Covered S t scan (S.key row)
  spent : ∀ scan ∈ t.done, scan.rest = []
  later : ∀ lock ∈ t.locked, ∀ entry ∈ log, entry.tx.holds S (S.key lock.1) → entry.time ≤ lock.2

-- The abstract reading of a run: a list of commits, each made against exactly
-- the state the older ones left.
inductive Chronicle (S : Schema Row Key) (base : List Row) : List (Entry Row Key) → Prop where
  | start (keyed : S.Keyed base) (apart : S.Apart base) : Chronicle S base []
  | commit (past : Chronicle S base older) (fits : Fits S base older entry.tx) :
      Chronicle S base (entry :: older)

structure Valid (S : Schema Row Key) (s : Store Row Key) : Prop where
  chronicle : Chronicle S s.base s.log
  past : ∀ entry ∈ s.log, entry.time ≤ s.now
  listed : ∀ pid t, s.txs pid = some t → pid ∈ s.active
  fits : ∀ pid t, s.txs pid = some t → Fits S s.base s.log t
  stamps : ∀ pid t, s.txs pid = some t → t.began ≤ s.now ∧ ∀ lock ∈ t.locked, lock.2 ≤ s.now
  separate : ∀ p q t other, p ≠ q → s.txs p = some t → s.txs q = some other → Separate S t other

theorem Chronicle.keyed {base : List Row} {log : List (Entry Row Key)}
    (history : Chronicle S base log) : S.Keyed (S.rows base log) := by
  induction history with
  | start keyed _ => exact keyed
  | commit _ fits ih => exact Schema.keyed_overlay ih fits.keyed

-- A transaction has seen at most one version of a row.
theorem Chronicle.seen_keyed {base : List Row} {log : List (Entry Row Key)}
    (history : Chronicle S base log) (member : entry ∈ log) : S.Keyed entry.tx.seen := by
  induction history with
  | start => cases member
  | commit past fits ih =>
      rcases List.mem_cons.mp member with rfl | older
      · exact fun a first b second same => past.keyed a (fits.current a first) b
          (fits.current b second) same
      · exact ih older

theorem Chronicle.apart {base : List Row} {log : List (Entry Row Key)}
    (history : Chronicle S base log) : S.Apart (S.rows base log) := by
  cases history with
  | start _ apart => exact apart
  | commit _ fits => exact fits.apart

-- The commits after the first `n`.
def recent (log : List (Entry Row Key)) (n : Nat) : List (Entry Row Key) := log.take (log.length-n)

omit [DecidableEq Key] in
theorem recent_cons {log : List (Entry Row Key)} {entry : Entry Row Key} (past : n ≤ log.length) :
    recent (entry :: log) n = entry :: recent log n := by
  have shift : (entry :: log).length-n = (log.length-n)+1 := by simp only [List.length_cons]; omega
  rw [recent,shift,List.take_succ_cons,recent]

omit [DecidableEq Key] in
theorem mem_recent {log : List (Entry Row Key)} {entry : Entry Row Key}
    (recently : entry ∈ recent log n) : entry ∈ log :=
  List.mem_of_mem_take recently

omit [DecidableEq Key] in
theorem recent_mono {log : List (Entry Row Key)} (earlier : n ≤ m) : recent log m ⊆ recent log n :=
  List.take_subset_take_left _ (Nat.sub_le_sub_left earlier _)

-- A version nobody has written since was there already.
theorem rowsAt_back {base : List Row} {log : List (Entry Row Key)} {row : Row}
    (found : row ∈ S.rows base log) (unwritten : ∀ entry ∈ recent log n, row ∉ entry.tx.writes) :
    row ∈ S.rowsAt base log n := by
  induction log with
  | nil => simpa [Schema.rowsAt] using found
  | cons entry older ih =>
      rcases Nat.lt_or_ge older.length n with after | early
      · have whole : (entry :: older).length-n = 0 := by simp only [List.length_cons]; omega
        rw [Schema.rowsAt,whole]
        exact found
      · rw [recent_cons early] at unwritten
        rw [Schema.rowsAt_cons early]
        rcases Schema.mem_rows_cons.mp found with wrote | ⟨old,_⟩
        · exact absurd wrote (unwritten entry List.mem_cons_self)
        · exact ih old fun e member => unwritten e (List.mem_cons_of_mem _ member)

-- A row nobody has written since is still there.
theorem rowsAt_kept {base : List Row} {log : List (Entry Row Key)} {row : Row}
    (past : n ≤ log.length) (found : row ∈ S.rowsAt base log n)
    (untouched : ∀ entry ∈ recent log n, S.key row ∉ S.keys entry.tx.writes) :
    row ∈ S.rows base log := by
  induction log with
  | nil => simpa [Schema.rowsAt] using found
  | cons entry older ih =>
      rcases Nat.lt_or_eq_of_le past with before | rfl
      · have early : n ≤ older.length := Nat.le_of_lt_succ before
        rw [Schema.rowsAt_cons early] at found
        rw [recent_cons early] at untouched
        refine Schema.mem_rows_cons.mpr
          (.inr ⟨ih early found fun e member => untouched e (List.mem_cons_of_mem _ member),?_⟩)
        exact untouched entry List.mem_cons_self
      · rwa [Schema.rowsAt_length] at found

-- A commit of somebody else changes nothing an open transaction relies on.
theorem fits_commit {base : List Row} {log : List (Entry Row Key)} {t other : Tx Row Key}
    (fits : Fits S base log t) (committed : Fits S base log other) (separate : Separate S t other) :
    Fits S base (⟨pid,time,other⟩ :: log) t where
  current row member := by
    have present := fits.current row member
    refine Schema.mem_rows_cons.mpr (.inr ⟨present,fun written => ?_⟩)
    obtain ⟨pending,wrote,same⟩ := Schema.mem_keys.mp written
    rcases committed.owned pending wrote with held | fresh
    · exact separate.locks _ (holds_seen.mpr ⟨row,member,rfl⟩) (same ▸ held)
    · exact fresh (Schema.mem_keys.mpr ⟨row,present,same.symm⟩)
  keyed := fits.keyed
  owned row member := by
    rcases fits.owned row member with held | fresh
    · exact .inl held
    · refine .inr fun present => ?_
      obtain ⟨newer,found,same⟩ := Schema.mem_keys.mp present
      rcases Schema.mem_rows_cons.mp found with wrote | ⟨old,_⟩
      · exact (separate.writes row member newer wrote).1 same.symm
      · exact fresh (Schema.mem_keys.mpr ⟨newer,old,same⟩)
  apart := by
    -- Each pair is one of: both ours, ours and theirs, ours and old, both theirs or old.
    have mixed {a b : Row} (first : a ∈ t.writes)
        (second : b ∈ S.rows base (⟨pid,time,other⟩ :: log)) (clear : S.key b ∉ S.keys t.writes)
        (different : S.key a ≠ S.key b) : S.clash a b = false := by
      rcases Schema.mem_rows_cons.mp second with wrote | ⟨old,_⟩
      · exact (separate.writes a first b wrote).2
      · exact fits.apart a (Schema.mem_overlay.mpr (.inl first)) b
          (Schema.mem_overlay.mpr (.inr ⟨old,clear⟩)) different
    intro a first b second different
    rcases Schema.mem_overlay.mp first with mine | ⟨theirs,clear⟩
    · rcases Schema.mem_overlay.mp second with also | ⟨found,free⟩
      · exact fits.apart a (Schema.mem_overlay.mpr (.inl mine)) b
          (Schema.mem_overlay.mpr (.inl also)) different
      · exact mixed mine found free different
    · rcases Schema.mem_overlay.mp second with mine | ⟨found,_⟩
      · rw [S.symm]
        exact mixed mine theirs clear different.symm
      · exact committed.apart a theirs b found different
  since := Nat.le_succ_of_le fits.since
  scans scan member := by
    obtain ⟨after,before,covered⟩ := fits.scans scan member
    refine ⟨after,Nat.le_succ_of_le before,?_⟩
    rw [Schema.rowsAt_cons before]
    exact covered
  spent := fits.spent
  later lock member entry logged shared := by
    rcases List.mem_cons.mp logged with rfl | old
    · exact absurd shared (separate.locks _ (holds_seen.mpr ⟨_,List.mem_map_of_mem member,rfl⟩))
    · exact fits.later lock member entry old shared

theorem committed_valid {s after : Store Row Key} (valid : Valid S s)
    (ran : s.commit pid = some after) : Valid S after := by
  obtain ⟨t,running,_,rfl⟩ := commit_parts ran
  have mine := valid.fits pid t running
  have rest {q : Pid} {other : Tx Row Key} (here : Function.update s.txs pid none q = some other) :
      q ≠ pid ∧ s.txs q = some other := by
    by_cases same : q = pid
    · subst same; simp at here
    · exact ⟨same,by simpa [Function.update_of_ne same] using here⟩
  constructor
  · exact .commit valid.chronicle mine
  · intro entry member
    rcases List.mem_cons.mp member with rfl | old
    · exact Int.le_refl _
    · exact valid.past entry old
  · intro q other here; exact valid.listed q other (rest here).2
  · intro q other here
    obtain ⟨different,before⟩ := rest here
    exact fits_commit (valid.fits q other before) mine
      (valid.separate q pid other t different before running)
  · intro q other here; exact valid.stamps q other (rest here).2
  · intro p q a b different first second
    exact valid.separate p q a b different (rest first).2 (rest second).2

-- A step that changes nothing but one open transaction.
theorem set_valid {s : Store Row Key} {t changed : Tx Row Key} (valid : Valid S s)
    (running : s.txs pid = some t) (fits : Fits S s.base s.log changed)
    (began : changed.began ≤ s.now) (stamps : ∀ lock ∈ changed.locked, lock.2 ≤ s.now)
    (separate : ∀ q other, q ≠ pid → s.txs q = some other → Separate S changed other) :
    Valid S (s.set pid changed) := by
  have here {q : Pid} {other : Tx Row Key}
      (found : Function.update s.txs pid (some changed) q = some other) :
      (q = pid ∧ other = changed) ∨ (q ≠ pid ∧ s.txs q = some other) := by
    by_cases same : q = pid
    · subst same
      simp only [Function.update_self,Option.some.injEq] at found
      exact .inl ⟨rfl,found.symm⟩
    · exact .inr ⟨same,by simpa [Function.update_of_ne same] using found⟩
  constructor
  · exact valid.chronicle
  · exact valid.past
  · intro q other found
    rcases here found with ⟨rfl,rfl⟩ | ⟨_,before⟩
    · exact valid.listed q t running
    · exact valid.listed q other before
  · intro q other found
    rcases here found with ⟨rfl,rfl⟩ | ⟨_,before⟩
    · exact fits
    · exact valid.fits q other before
  · intro q other found
    rcases here found with ⟨rfl,rfl⟩ | ⟨_,before⟩
    · exact ⟨began,stamps⟩
    · exact valid.stamps q other before
  · intro p q a b different first second
    rcases here first with ⟨rfl,rfl⟩ | ⟨away,before⟩
    · rcases here second with ⟨rfl,rfl⟩ | ⟨other,also⟩
      · exact absurd rfl different
      · exact separate q b other also
    · rcases here second with ⟨rfl,rfl⟩ | ⟨_,also⟩
      · exact (separate p a away before).symm
      · exact valid.separate p q a b different before also

theorem others_mem {s : Store Row Key} {other : Tx Row Key} (valid : Valid S s)
    (different : q ≠ pid) (running : s.txs q = some other) : other ∈ s.others pid :=
  List.mem_filterMap.mpr ⟨q,valid.listed q other running,by simp [different,running]⟩

theorem free_parts {s : Store Row Key} {t : Tx Row Key} {row : Row}
    (free : s.free S pid t row = true) :
    (∀ old ∈ s.visible S t, S.key old ≠ S.key row → S.clash old row = false) ∧
      ∀ other ∈ s.others pid, ∀ pending ∈ other.writes, S.key pending ≠ S.key row ∧
        S.clash pending row = false := by
  simp only [Store.free,Bool.and_eq_true,List.all_eq_true,Bool.or_eq_true,decide_eq_true_eq,
    Bool.not_eq_true'] at free
  refine ⟨fun old member different => ?_,fun other member pending wrote => ?_⟩
  · rcases free.1 old member with same | clear
    · exact absurd same different
    · exact clear
  · simpa using free.2 other member pending wrote

theorem lock_holds {t : Tx Row Key} {k : Key} (held : t.holds S k) :
    (t.lock S found now).holds S k := by
  unfold Tx.lock
  split
  · split
    · exact held
    · exact List.mem_cons_of_mem _ held
  · exact held

theorem lock_frame (t : Tx Row Key) (found : Option Row) (now : Int) :
    (t.lock S found now).writes = t.writes ∧ (t.lock S found now).began = t.began ∧
      (t.lock S found now).since = t.since ∧ (t.lock S found now).done = t.done ∧
        (t.lock S found now).scan = t.scan := by
  unfold Tx.lock
  split
  · split <;> exact ⟨rfl,rfl,rfl,rfl,rfl⟩
  · exact ⟨rfl,rfl,rfl,rfl,rfl⟩

-- What a new lock adds.
theorem mem_lock {t : Tx Row Key} {found : Option Row} {entry : Row × Int}
    (member : entry ∈ (t.lock S found now).locked) :
    entry ∈ t.locked ∨ (found = some entry.1 ∧ entry.2 = now ∧ ¬t.holds S (S.key entry.1)) := by
  unfold Tx.lock at member
  split at member
  · split at member
    · exact .inl member
    · rename_i unheld
      rcases List.mem_cons.mp member with rfl | old
      · exact .inr ⟨rfl,rfl,unheld⟩
      · exact .inl old
  · exact .inl member

theorem locked_holds {t : Tx Row Key} {row : Row} :
    (t.lock S (some row) now).holds S (S.key row) := by
  unfold Tx.lock
  dsimp only
  split
  · rename_i held; exact held
  · exact List.mem_cons_self

-- No row is locked twice.
def Tx.Once (S : Schema Row Key) (t : Tx Row Key) : Prop := (S.keys t.seen).Nodup

theorem lock_once {t : Tx Row Key} (once : t.Once S) (found : Option Row) (now : Int) :
    (t.lock S found now).Once S := by
  unfold Tx.lock
  split
  · split
    · exact once
    · rename_i unheld
      exact List.nodup_cons.mpr ⟨unheld,once⟩
  · exact once

theorem visited_once {t : Tx Row Key} {scan : Scan Row Key} {rest : List Key} {found : Option Row}
    {row : Row} {change : Option (Row → Row)} (once : t.Once S) :
    (t.visited S scan rest found now row change).Once S := by
  unfold Tx.visited
  dsimp only
  split
  · cases change <;> exact lock_once once found now
  · exact lock_once once found now

omit [DecidableEq Key] in
theorem stamp_once {t : Tx Row Key} {row : Row} (once : t.Once S) (first : (row,a) ∈ t.locked)
    (second : (row,b) ∈ t.locked) : a = b := by
  have distinct : (t.locked.map fun lock => S.key lock.1).Nodup := by
    simpa [Tx.Once,Schema.keys,Tx.seen,List.map_map,Function.comp_def] using once
  exact congrArg Prod.snd (List.inj_on_of_nodup_map distinct first second rfl)

section Steps
variable {base : List Row} {log : List (Entry Row Key)} {t : Tx Row Key}

theorem put_keys {row : Row} {k : Key} (written : k ∈ S.keys t.writes) :
    k ∈ S.keys (t.put S row).writes := by
  obtain ⟨old,member,rfl⟩ := Schema.mem_keys.mp written
  by_cases same : S.key old = S.key row
  · exact Schema.mem_keys.mpr ⟨row,List.mem_cons_self,same.symm⟩
  · exact Schema.mem_keys.mpr ⟨old,List.mem_cons_of_mem _ (List.mem_filter.mpr
      ⟨member,by simpa using same⟩),rfl⟩

theorem mem_put {row old : Row} :
    old ∈ (t.put S row).writes ↔ old = row ∨ (old ∈ t.writes ∧ S.key old ≠ S.key row) := by
  simp [Tx.put]

theorem lock_fits {found : Option Row} (fits : Fits S base log t)
    (current : ∀ row ∈ found, row ∈ S.rows base log) (past : ∀ entry ∈ log, entry.time ≤ now) :
    Fits S base log (t.lock S found now) := by
  obtain ⟨writes,_,since,done,scan⟩ := lock_frame (S := S) t found now
  refine ⟨?_,writes ▸ fits.keyed,?_,writes ▸ fits.apart,since ▸ fits.since,?_,done ▸ fits.spent,?_⟩
  · intro row member
    obtain ⟨entry,inside,rfl⟩ := List.mem_map.mp member
    rcases mem_lock inside with old | ⟨new,_⟩
    · exact fits.current _ (List.mem_map_of_mem old)
    · exact current _ new
  · intro row member
    rcases fits.owned row (writes ▸ member) with held | fresh
    · exact .inl (lock_holds held)
    · exact .inr fresh
  · rw [done,scan,since]
    intro open' member
    simpa only [Covered,writes] using fits.scans open' member
  · intro lock member entry logged shared
    rcases mem_lock member with old | ⟨_,stamp,_⟩
    · exact fits.later lock old entry logged shared
    · exact stamp ▸ past entry logged

theorem put_fits {row : Row} (fits : Fits S base log t)
    (owned : t.holds S (S.key row) ∨ S.key row ∉ S.keys (S.rows base log))
    (free : ∀ old ∈ S.overlay (S.rows base log) t.writes, S.key old ≠ S.key row →
      S.clash old row = false) : Fits S base log (t.put S row) := by
  refine ⟨fits.current,?_,?_,?_,fits.since,?_,fits.spent,fits.later⟩
  · intro a first b second same
    rcases mem_put.mp first with rfl | ⟨old,other⟩
    · rcases mem_put.mp second with rfl | ⟨_,different⟩
      · rfl
      · exact absurd same.symm different
    · rcases mem_put.mp second with rfl | ⟨also,_⟩
      · exact absurd same other
      · exact fits.keyed a old b also same
  · intro written member
    rcases mem_put.mp member with rfl | ⟨old,_⟩
    · exact owned
    · exact fits.owned written old
  · -- Every version but the new one was already visible.
    have visible {a : Row} (member : a ∈ S.overlay (S.rows base log) (t.put S row).writes) :
        a = row ∨ a ∈ S.overlay (S.rows base log) t.writes := by
      rcases Schema.mem_overlay.mp member with wrote | ⟨old,clear⟩
      · rcases mem_put.mp wrote with rfl | ⟨before,_⟩
        · exact .inl rfl
        · exact .inr (Schema.mem_overlay.mpr (.inl before))
      · exact .inr (Schema.mem_overlay.mpr (.inr ⟨old,fun written => clear (put_keys written)⟩))
    intro a first b second different
    rcases visible first with rfl | old
    · rcases visible second with rfl | also
      · exact absurd rfl different
      · rw [S.symm]; exact free b also different.symm
    · rcases visible second with rfl | also
      · exact free a old different
      · exact fits.apart a old b also different
  · intro scan member
    obtain ⟨after,before,covered⟩ := fits.scans scan member
    refine ⟨after,before,fun found snapshot passes => ?_⟩
    rcases covered found snapshot passes with waiting | visited | written
    · exact .inl waiting
    · exact .inr (.inl visited)
    · exact .inr (.inr (put_keys written))

theorem rescan_fits {scan : Option (Scan Row Key)} (fits : Fits S base log t)
    (covered : ∀ next ∈ scan, t.since ≤ next.start ∧ next.start ≤ log.length ∧
      ∀ row ∈ S.rowsAt base log next.start, next.test row = true → Covered S t next (S.key row)) :
    Fits S base log {t with scan := scan} := by
  refine ⟨fits.current,fits.keyed,fits.owned,fits.apart,fits.since,?_,fits.spent,fits.later⟩
  intro next member
  rcases List.mem_append.mp member with running | done
  · exact covered next (Option.mem_toList.mp running)
  · exact fits.scans next (List.mem_append_right _ done)

end Steps

section Operations
variable {s after : Store Row Key} {t : Tx Row Key}

theorem started_valid (valid : Valid S s)
    (ran : s.start S pid test order = some after) : Valid S after := by
  obtain ⟨t,running,_,_,_,covers,rfl⟩ := start_parts ran
  have fits := valid.fits pid t running
  refine set_valid valid running (rescan_fits fits ?_) (valid.stamps pid t running).1
    (valid.stamps pid t running).2 fun q other different found => ?_
  · intro next chosen
    cases chosen
    refine ⟨fits.since,Nat.le_refl _,?_⟩
    rw [Schema.rowsAt_length]
    intro row member passes
    by_cases written : S.key row ∈ S.keys t.writes
    · exact .inr (.inr written)
    · exact .inl (covers row (Schema.mem_overlay.mpr (.inr ⟨member,written⟩)) passes)
  · obtain ⟨locks,writes⟩ := valid.separate pid q t other different.symm running found
    exact ⟨locks,writes⟩

theorem unlocked_free (valid : Valid S s) (unlocked : s.unlocked S pid k = true)
    (different : q ≠ pid) (running : s.txs q = some other) : ¬other.holds S k := by
  have all := List.all_eq_true.mp unlocked other (others_mem valid different running)
  simpa using all

theorem lock_separate {other : Tx Row Key} {found : Option Row} (separate : Separate S t other)
    (unlocked : ∀ row ∈ found, ¬other.holds S (S.key row)) :
    Separate S (t.lock S found now) other := by
  refine ⟨fun k held => ?_,?_⟩
  · obtain ⟨row,member,rfl⟩ := holds_seen.mp held
    obtain ⟨entry,inside,rfl⟩ := List.mem_map.mp member
    rcases mem_lock inside with old | ⟨new,_⟩
    · exact separate.locks _ (holds_seen.mpr ⟨_,List.mem_map_of_mem old,rfl⟩)
    · exact unlocked _ new
  · rw [(lock_frame (S := S) t found now).1]
    exact separate.writes

theorem put_separate {other : Tx Row Key} {row : Row} (separate : Separate S t other)
    (free : ∀ pending ∈ other.writes, S.key pending ≠ S.key row ∧ S.clash pending row = false) :
    Separate S (t.put S row) other := by
  refine ⟨separate.locks,fun written member pending wrote => ?_⟩
  rcases mem_put.mp member with rfl | ⟨old,_⟩
  · obtain ⟨different,clear⟩ := free pending wrote
    exact ⟨different.symm,S.symm written pending ▸ clear⟩
  · exact separate.writes written old pending wrote

theorem rescanned_valid {changed : Tx Row Key} {scan next : Scan Row Key} {row : Row}
    (valid : Valid S s) (running : s.txs pid = some t) (fits : Fits S s.base s.log changed)
    (began : changed.began = t.began) (stamps : ∀ lock ∈ changed.locked, lock.2 ≤ s.now)
    (separate : ∀ q other, q ≠ pid → s.txs q = some other → Separate S changed other)
    (scanning : changed.scan = some scan)
    (moved : next.start = scan.start ∧ next.test = scan.test ∧ scan.rest = S.key row :: next.rest ∧
      (next.hits ++ next.misses).Perm (row :: (scan.hits ++ scan.misses))) :
    Valid S (s.set pid {changed with scan := some next}) := by
  obtain ⟨start,test,rest,visited⟩ := moved
  have covered := fits.scans scan
    (by rw [scanning]; exact List.mem_append_left _ (List.mem_singleton.mpr rfl))
  refine set_valid valid running (rescan_fits fits ?_)
    (began ▸ (valid.stamps pid t running).1) stamps fun q other different here => ?_
  · rintro _ ⟨⟩
    rw [start,test]
    exact ⟨covered.1,covered.2.1,fun old member hit => covered_next rest visited
      (covered.2.2 old member hit)⟩
  · obtain ⟨locks,writes⟩ := separate q other different here
    exact ⟨locks,writes⟩

theorem visited_valid (valid : Valid S s)
    (ran : s.visit S pid change = some after) : Valid S after := by
  obtain ⟨t,scan,k,rest,row,running,scanning,next,found,unlocked,permitted,rfl⟩ := visit_parts ran
  have keyed : S.key row = k := by simpa using List.find?_some found
  have current : ∀ old ∈ (s.committed S).find? (S.key · = k), old ∈ S.rows s.base s.log :=
    fun old hit => List.mem_of_find?_eq_some hit
  have matching : ∀ old ∈ (s.committed S).find? (S.key · = k), S.key old = k :=
    fun old hit => by simpa using List.find?_some hit
  obtain ⟨writes,began,_,_,still⟩ :=
    lock_frame (S := S) t ((s.committed S).find? (S.key · = k)) s.now
  have fits := lock_fits (valid.fits pid t running) current valid.past
  have separate : ∀ q other, q ≠ pid → s.txs q = some other →
      Separate S (t.lock S ((s.committed S).find? (S.key · = k)) s.now) other := by
    intro q other different here
    refine lock_separate (valid.separate pid q t other different.symm running here)
      fun old hit => ?_
    rw [matching old hit]
    exact unlocked_free valid unlocked different here
  have stamps : ∀ lock ∈ (t.lock S ((s.committed S).find? (S.key · = k)) s.now).locked,
      lock.2 ≤ s.now := by
    intro lock member
    rcases mem_lock member with old | ⟨_,stamp,_⟩
    · exact (valid.stamps pid t running).2 lock old
    · exact stamp ▸ Int.le_refl _
  unfold Tx.visited
  dsimp only
  split
  · rename_i passes
    cases change with
    | none =>
        exact rescanned_valid valid running fits began stamps separate (still.trans scanning)
          ⟨rfl,rfl,by rw [next,keyed],.refl _⟩
    | some f =>
        have allowed := permitted passes
        simp only [Store.permitted,Bool.and_eq_true,decide_eq_true_eq] at allowed
        obtain ⟨same,free⟩ := allowed
        obtain ⟨clear,others⟩ := free_parts free
        have owned : (t.lock S ((s.committed S).find? (S.key · = k)) s.now).holds S
            (S.key (f row)) ∨ S.key (f row) ∉ S.keys (S.rows s.base s.log) := by
          rw [same,keyed]
          cases hit : (s.committed S).find? (S.key · = k) with
          | none =>
              refine .inr fun present => ?_
              obtain ⟨old,member,also⟩ := Schema.mem_keys.mp present
              exact absurd also (by simpa using List.find?_eq_none.mp hit old member)
          | some old => exact .inl (matching old hit ▸ locked_holds)
        have putFits := put_fits fits owned (by rw [writes]; exact clear)
        have apart : ∀ q other, q ≠ pid → s.txs q = some other → Separate S
            ((t.lock S ((s.committed S).find? (S.key · = k)) s.now).put S (f row)) other :=
          fun q other different here =>
            put_separate (separate q other different here)
              (others other (others_mem valid different here))
        exact rescanned_valid valid running putFits began stamps apart (still.trans scanning)
          ⟨rfl,rfl,by rw [next,keyed],.refl _⟩
  · exact rescanned_valid valid running fits began stamps separate (still.trans scanning)
      ⟨rfl,rfl,by rw [next,keyed],List.perm_middle⟩

theorem finished_valid {got : List Row} (valid : Valid S s)
    (ran : s.finish pid = some (after,got)) : Valid S after := by
  obtain ⟨t,scan,running,scanning,spent,_,rfl⟩ := finish_parts ran
  have fits := valid.fits pid t running
  have scans : ∀ next ∈ (t.finished scan).scan.toList ++ (t.finished scan).done,
      next ∈ t.scan.toList ++ t.done := by
    intro next member
    rw [scanning]
    exact member
  refine set_valid valid running ?_ (valid.stamps pid t running).1 (valid.stamps pid t running).2
    fun q other different here => ?_
  · refine ⟨fits.current,fits.keyed,fits.owned,fits.apart,fits.since,
      fun next member => fits.scans next (scans next member),fun next member => ?_,fits.later⟩
    rcases List.mem_cons.mp member with rfl | old
    · exact spent
    · exact fits.spent next old
  · obtain ⟨locks,writes⟩ := valid.separate pid q t other different.symm running here
    exact ⟨locks,writes⟩

theorem inserted_valid {make : Nat → Row} {row : Row} (valid : Valid S s)
    (ran : s.insert S pid make = some (after,row)) : Valid S after := by
  obtain ⟨t,running,_,_,fresh,free,rfl⟩ := insert_parts ran
  obtain ⟨clear,others⟩ := free_parts free
  have unseen : S.key row ∉ S.keys (S.rows s.base s.log) := by
    intro present
    obtain ⟨old,member,same⟩ := Schema.mem_keys.mp present
    refine fresh (same ▸ ?_)
    by_cases written : S.key old ∈ S.keys t.writes
    · obtain ⟨newer,wrote,also⟩ := Schema.mem_keys.mp written
      exact Schema.mem_keys.mpr ⟨newer,Schema.mem_overlay.mpr (.inl wrote),also⟩
    · exact Schema.mem_keys.mpr ⟨old,Schema.mem_overlay.mpr (.inr ⟨member,written⟩),rfl⟩
  have valid' : Valid S (s.set pid (t.put S row)) := by
    refine set_valid valid running (put_fits (valid.fits pid t running) (.inr unseen) clear)
      (valid.stamps pid t running).1 (valid.stamps pid t running).2 fun q other different here => ?_
    exact put_separate (valid.separate pid q t other different.symm running here)
      (others other (others_mem valid different here))
  exact ⟨valid'.chronicle,valid'.past,valid'.listed,valid'.fits,valid'.stamps,valid'.separate⟩

theorem opened_valid (valid : Valid S s) (opened : s.openTx pid = some after) : Valid S after := by
  obtain ⟨idle,rfl⟩ := openTx_parts opened
  have here {q : Pid} {other : Tx Row Key}
      (found : Function.update s.txs pid (some (.empty s.now s.log.length)) q = some other) :
      (q = pid ∧ other = .empty s.now s.log.length) ∨ (q ≠ pid ∧ s.txs q = some other) := by
    by_cases same : q = pid
    · subst same
      simp only [Function.update_self,Option.some.injEq] at found
      exact .inl ⟨rfl,found.symm⟩
    · exact .inr ⟨same,by simpa [Function.update_of_ne same] using found⟩
  have blank (other : Tx Row Key) : Separate S (.empty s.now s.log.length) other :=
    ⟨fun _ held => (List.not_mem_nil held).elim,fun _ member => (List.not_mem_nil member).elim⟩
  constructor
  · exact valid.chronicle
  · exact valid.past
  · intro q other found
    rcases here found with ⟨rfl,_⟩ | ⟨_,before⟩
    · exact List.mem_cons_self
    · exact List.mem_cons_of_mem _ (valid.listed q other before)
  · intro q other found
    rcases here found with ⟨_,rfl⟩ | ⟨_,before⟩
    · constructor <;> simp only [Tx.empty,Tx.seen,List.map_nil,List.not_mem_nil,false_implies,
        implies_true,Schema.overlay_nil,Option.toList_none,List.append_nil]
      · simp [Schema.Keyed]
      · exact valid.chronicle.apart
      · exact Nat.le_refl _
    · exact valid.fits q other before
  · intro q other found
    rcases here found with ⟨_,rfl⟩ | ⟨_,before⟩
    · exact ⟨Int.le_refl _,fun _ member => (List.not_mem_nil member).elim⟩
    · exact valid.stamps q other before
  · intro p q a b different first second
    rcases here first with ⟨rfl,rfl⟩ | ⟨_,before⟩
    · exact blank b
    · rcases here second with ⟨rfl,rfl⟩ | ⟨_,also⟩
      · exact (blank a).symm
      · exact valid.separate p q a b different before also

theorem rollback_valid (valid : Valid S s) (pid : Pid) : Valid S (s.rollback pid) := by
  have rest {q : Pid} {other : Tx Row Key} (here : Function.update s.txs pid none q = some other) :
      s.txs q = some other := by
    by_cases same : q = pid
    · subst same; simp at here
    · simpa [Function.update_of_ne same] using here
  exact ⟨valid.chronicle,valid.past,fun q other here => valid.listed q other (rest here),
    fun q other here => valid.fits q other (rest here),fun q other here => valid.stamps q other
      (rest here),
    fun p q a b different first second => valid.separate p q a b different (rest first)
      (rest second)⟩

theorem tick_valid (valid : Valid S s) (elapsed : Nat) : Valid S (s.tick elapsed) := by
  have grows : s.now ≤ s.now+elapsed := by omega
  exact ⟨valid.chronicle,fun entry member => Int.le_trans (valid.past entry member) grows,
    valid.listed,valid.fits,fun pid t running => ⟨Int.le_trans (valid.stamps pid t running).1 grows,
    fun lock member => Int.le_trans ((valid.stamps pid t running).2 lock member) grows⟩,
    valid.separate⟩

end Operations

end RestApi.RowStore
