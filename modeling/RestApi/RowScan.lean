import RestApi.RowHistory

namespace RestApi.RowStore
open Pool

variable {Row Key : Type} [DecidableEq Key] {S : Schema Row Key}

-- A version this transaction wrote, or locked and left alone.
def Tx.Knows (S : Schema Row Key) (t : Tx Row Key) (row : Row) : Prop :=
  row ∈ t.writes ∨ row ∈ t.seen ∧ S.key row ∉ S.keys t.writes

-- A locking statement as its own transaction sees it. Which rows there are, and
-- when the locks come free, is up to the others.
inductive StatementStep (S : Schema Row Key) (test : Row → Bool) (change : Option (Row → Row)) :
    Tx Row Key → Tx Row Key → Prop where
  | start (idle : t.scan = none) (distinct : order.Nodup)
      (found : ∀ k ∈ order, ∃ row, test row = true ∧ S.key row = k)
      (covers : ∀ row, t.Knows S row → test row = true → S.key row ∈ order) :
      StatementStep S test change t {t with scan := some ⟨snapshot,test,order,[],[]⟩}
  | visit (scanning : t.scan = some scan) (next : scan.rest = S.key row :: rest)
      (version : row ∈ t.writes ∨ committed = some row ∧ ∀ old ∈ t.seen, S.key old = S.key row →
        old = row) (own : ∀ old ∈ committed, S.key old = S.key row)
      (kept : scan.test row = true → ∀ f ∈ change, S.key (f row) = S.key row) :
      StatementStep S test change t (t.visited S scan rest committed now row change)

-- How far a statement with this WHERE and SET has come since `before`.
structure Scanning (S : Schema Row Key) (test : Row → Bool) (change : Option (Row → Row))
    (before t : Tx Row Key) (scan : Scan Row Key) : Prop where
  scanning : t.scan = some scan
  where' : scan.test = test
  frame : t.began = before.began ∧ t.since = before.since ∧ t.done = before.done
  locked : before.locked ⊆ t.locked
  added : ∀ lock ∈ t.locked, lock ∈ before.locked ∨ S.key lock.1 ∈ S.keys (scan.hits ++ scan.misses)
  coming : ∀ k ∈ scan.rest, ∃ row, test row = true ∧ S.key row = k
  visited : ∀ row ∈ scan.hits ++ scan.misses, ∃ found, test found = true ∧ S.key found = S.key row
  complete : ∀ row, before.Knows S row → test row = true →
    S.key row ∈ scan.rest ∨ S.key row ∈ S.keys (scan.hits ++ scan.misses)
  distinct : (scan.rest ++ S.keys (scan.hits ++ scan.misses)).Nodup
  hits : ∀ row ∈ scan.hits, test row = true ∧ (row ∈ before.writes ∨ row ∈ t.seen)
  misses : ∀ row ∈ scan.misses, test row = false ∧ (row ∈ before.writes ∨ row ∈ t.seen)
  writes : t.writes = match change with
    | none => before.writes
    | some f => S.overlay before.writes (scan.hits.map f)
  kept : ∀ f ∈ change, ∀ row ∈ scan.hits, S.key (f row) = S.key row

section Scan
variable {test : Row → Bool} {change : Option (Row → Row)} {before t after : Tx Row Key}
  {scan : Scan Row Key}

theorem started_scanning {order : List Key} (distinct : order.Nodup)
    (found : ∀ k ∈ order, ∃ row, test row = true ∧ S.key row = k)
    (covers : ∀ row, before.Knows S row → test row = true → S.key row ∈ order) :
    Scanning S test change before {before with scan := some ⟨snapshot,test,order,[],[]⟩}
      ⟨snapshot,test,order,[],[]⟩ where
  scanning := rfl
  where' := rfl
  frame := ⟨rfl,rfl,rfl⟩
  locked := List.Subset.refl _
  added lock member := .inl member
  coming := found
  visited := by simp
  complete row known passes := .inl (covers row known passes)
  distinct := by simpa [Schema.keys] using distinct
  hits := by simp
  misses := by simp
  writes := by cases change <;> simp [Schema.overlay,Schema.keys]
  kept := by simp

theorem lock_subset (t : Tx Row Key) (found : Option Row) (now : Int) :
    t.locked ⊆ (t.lock S found now).locked := by
  unfold Tx.lock
  split
  · split
    · exact List.Subset.refl _
    · exact List.subset_cons_self _ _
  · exact List.Subset.refl _

theorem lock_seen {row : Row} (t : Tx Row Key)
    (current : ∀ old ∈ t.seen, S.key old = S.key row → old = row) :
    row ∈ (t.lock S (some row) now).seen := by
  unfold Tx.lock
  dsimp only
  split
  · rename_i held
    obtain ⟨old,member,same⟩ := holds_seen.mp held
    exact current old member same ▸ member
  · exact List.mem_cons_self

theorem overlay_disjoint {rows writes : List Row}
    (clear : ∀ row ∈ rows, S.key row ∉ S.keys writes) : S.overlay rows writes = writes ++ rows := by
  have all : rows.filter (fun row => S.key row ∉ S.keys writes) = rows := by
    rw [List.filter_eq_self]
    intro row member
    simpa using clear row member
  rw [Schema.overlay,all]

theorem overlay_cons {rows writes : List Row} {row : Row} (new : S.key row ∉ S.keys writes) :
    S.overlay rows (row :: writes) = row :: (S.overlay rows writes).filter fun old =>
      S.key old ≠ S.key row := by
  have others : writes.filter (fun old => S.key old ≠ S.key row) = writes := by
    rw [List.filter_eq_self]
    intro old member
    simpa using fun same => new (Schema.mem_keys.mpr ⟨old,member,same⟩)
  simp only [Schema.overlay,List.filter_append,others,List.cons_append,List.filter_filter]
  congr 2
  apply List.filter_congr
  intro old _
  simp [Schema.keys]

-- One visit: the version read under the lock joins the hits or the misses, and
-- nothing else about the transaction changes.
theorem visited_scanning {row : Row} {rest : List Key} {committed : Option Row}
    (sofar : Scanning S test change before t scan) (next : scan.rest = S.key row :: rest)
    (version : row ∈ t.writes ∨ committed = some row ∧ ∀ old ∈ t.seen, S.key old = S.key row →
      old = row) (own : ∀ old ∈ committed, S.key old = S.key row)
    (kept : scan.test row = true → ∀ f ∈ change, S.key (f row) = S.key row) :
    ∃ scan', Scanning S test change before
      (t.visited S scan rest committed now row change) scan' := by
  obtain ⟨writes,began,since,done,_⟩ := lock_frame (S := S) t committed now
  have unvisited : S.key row ∉ S.keys (scan.hits ++ scan.misses) := by
    have distinct := sofar.distinct
    rw [next,List.cons_append,List.nodup_cons] at distinct
    exact fun visited => distinct.1 (List.mem_append_right _ visited)
  have older : row ∈ t.writes → row ∈ before.writes := by
    intro member
    rw [sofar.writes] at member
    cases change with
    | none => exact member
    | some f =>
        rcases Schema.mem_overlay.mp member with written | ⟨old,_⟩
        · obtain ⟨hit,inside,rfl⟩ := List.mem_map.mp written
          refine absurd ?_ unvisited
          rw [sofar.kept f rfl hit inside]
          exact Schema.mem_keys.mpr ⟨hit,List.mem_append_left _ inside,rfl⟩
        · exact old
  have source : row ∈ before.writes ∨ row ∈ (t.lock S committed now).seen := by
    rcases version with mine | ⟨rfl,current⟩
    · exact .inl (older mine)
    · exact .inr (lock_seen t current)
  have still {old : Row} : old ∈ t.seen → old ∈ (t.lock S committed now).seen := by
    intro member
    obtain ⟨entry,inside,rfl⟩ := List.mem_map.mp member
    exact List.mem_map_of_mem (lock_subset t committed now inside)
  have frame : (t.lock S committed now).began = before.began ∧
    (t.lock S committed now).since = before.since ∧ (t.lock S committed now).done = before.done :=
    ⟨began.trans sofar.frame.1,since.trans sofar.frame.2.1,done.trans sofar.frame.2.2⟩
  have locked : before.locked ⊆ (t.lock S committed now).locked :=
    List.Subset.trans sofar.locked (lock_subset t committed now)
  have added {all : List Row} (perm : all.Perm (row :: (scan.hits ++ scan.misses))) :
      ∀ lock ∈ (t.lock S committed now).locked, lock ∈ before.locked ∨
          S.key lock.1 ∈ S.keys all := by
    intro lock member
    rw [Schema.keys,(perm.map S.key).mem_iff]
    rcases mem_lock member with old | ⟨new,_,_⟩
    · exact (sofar.added lock old).imp_right (List.mem_cons_of_mem _)
    · rw [own lock.1 new]
      exact .inr List.mem_cons_self
  have coming : ∀ k ∈ rest, ∃ row, test row = true ∧ S.key row = k :=
    fun k member => sofar.coming k (next ▸ List.mem_cons_of_mem _ member)
  have visited {all : List Row} (perm : all.Perm (row :: (scan.hits ++ scan.misses))) :
      ∀ old ∈ all, ∃ found, test found = true ∧ S.key found = S.key old := by
    intro old member
    rcases List.mem_cons.mp (perm.mem_iff.mp member) with rfl | earlier
    · exact sofar.coming _ (next ▸ List.mem_cons_self)
    · exact sofar.visited old earlier
  have complete {all : List Row} (perm : all.Perm (row :: (scan.hits ++ scan.misses))) :
      ∀ old, before.Knows S old → test old = true → S.key old ∈ rest ∨ S.key old ∈ S.keys all := by
    intro old known passes
    rw [Schema.keys,(perm.map S.key).mem_iff]
    rcases sofar.complete old known passes with waiting | done
    · rw [next] at waiting
      rcases List.mem_cons.mp waiting with here | later
      · exact .inr (List.mem_cons.mpr (.inl here))
      · exact .inl later
    · exact .inr (List.mem_cons.mpr (.inr done))
  have distinct {visited : List Row} (perm : visited.Perm (row :: (scan.hits ++ scan.misses))) :
      (rest ++ S.keys visited).Nodup := by
    have all := sofar.distinct
    rw [next,List.cons_append] at all
    refine (List.Perm.nodup_iff ?_).mp all
    exact List.perm_middle.symm.trans ((List.Perm.refl rest).append (perm.map S.key).symm)
  have hits : ∀ old ∈ scan.hits, test old = true ∧
    (old ∈ before.writes ∨ old ∈ (t.lock S committed now).seen) :=
    fun old member => ⟨(sofar.hits old member).1,(sofar.hits old member).2.imp_right still⟩
  have misses : ∀ old ∈ scan.misses, test old = false ∧
    (old ∈ before.writes ∨ old ∈ (t.lock S committed now).seen) :=
    fun old member => ⟨(sofar.misses old member).1,(sofar.misses old member).2.imp_right still⟩
  unfold Tx.visited
  dsimp only
  split
  · rename_i passes
    have hit : ∀ old ∈ row :: scan.hits,
        test old = true ∧ (old ∈ before.writes ∨ old ∈ (t.lock S committed now).seen) := by
      intro old member
      rcases List.mem_cons.mp member with rfl | earlier
      · exact ⟨sofar.where' ▸ passes,source⟩
      · exact hits old earlier
    cases change with
    | none =>
        exact ⟨_,rfl,sofar.where',frame,locked,added (.refl _),coming,visited (.refl _),
          complete (.refl _),distinct (.refl _),hit,misses,writes.trans sofar.writes,by simp⟩
    | some f =>
        refine ⟨_,rfl,sofar.where',frame,locked,added (.refl _),coming,visited (.refl _),
          complete (.refl _),distinct (.refl _),hit,misses,?_,?_⟩
        · have image : S.key (f row) ∉ S.keys (scan.hits.map f) := by
            intro member
            obtain ⟨_,inside,same⟩ := Schema.mem_keys.mp member
            obtain ⟨old,earlier,rfl⟩ := List.mem_map.mp inside
            rw [sofar.kept f rfl old earlier,kept passes f rfl] at same
            exact unvisited (Schema.mem_keys.mpr ⟨old,List.mem_append_left _ earlier,same⟩)
          simp only [Tx.put,writes,sofar.writes,List.map_cons]
          exact (overlay_cons image).symm
        · rintro _ ⟨⟩ old member
          rcases List.mem_cons.mp member with rfl | earlier
          · exact kept passes f rfl
          · exact sofar.kept f rfl old earlier
  · rename_i fails
    have miss : ∀ old ∈ row :: scan.misses,
        test old = false ∧ (old ∈ before.writes ∨ old ∈ (t.lock S committed now).seen) := by
      intro old member
      rcases List.mem_cons.mp member with rfl | earlier
      · exact ⟨by rw [← sofar.where']; simpa using fails,source⟩
      · exact misses old earlier
    exact ⟨_,rfl,sofar.where',frame,locked,added List.perm_middle,coming,visited List.perm_middle,
      complete List.perm_middle,distinct List.perm_middle,hits,miss,writes.trans sofar.writes,
      sofar.kept⟩

def Progress (S : Schema Row Key) (test : Row → Bool) (change : Option (Row → Row))
    (before t : Tx Row Key) : Prop :=
  t = before ∨ ∃ scan, Scanning S test change before t scan

theorem step_progress (idle : before.scan = none) (sofar : Progress S test change before t)
    (stepped : StatementStep S test change t after) : Progress S test change before after := by
  cases stepped with
  | start unstarted distinct found covers =>
      rcases sofar with rfl | ⟨scan,running⟩
      · exact .inr ⟨_,started_scanning distinct found covers⟩
      · rw [running.scanning] at unstarted
        cases unstarted
  | visit scanning next version own kept =>
      rcases sofar with rfl | ⟨scan',running⟩
      · rw [idle] at scanning
        cases scanning
      · rw [running.scanning] at scanning
        cases scanning
        exact .inr (visited_scanning running next version own kept)

-- A WHERE that pins the primary key finds at most one row.
theorem Scanning.single (sofar : Scanning S test change before t scan)
    (only : ∀ row, test row = true → S.key row = k) : (scan.hits ++ scan.misses).length ≤ 1 := by
  have same : ∀ key ∈ S.keys (scan.hits ++ scan.misses), key = k := by
    intro key member
    obtain ⟨row,inside,rfl⟩ := Schema.mem_keys.mp member
    obtain ⟨found,passes,keyed⟩ := sofar.visited row inside
    exact keyed ▸ only found passes
  have distinct : (S.keys (scan.hits ++ scan.misses)).Nodup :=
    (List.nodup_append.mp sofar.distinct).2.1
  rw [← List.length_map (f := S.key)]
  match listed : (scan.hits ++ scan.misses).map S.key with
  | [] => simp
  | [_] => simp
  | a :: b :: rest =>
      rw [Schema.keys,listed] at same distinct
      have equal : a = b := (same a (by simp)).trans (same b (by simp)).symm
      simp [equal] at distinct

-- A point statement on a row already locked finds exactly the version seen.
theorem Scanning.point {row : Row} (sofar : Scanning S test change before t scan)
    (spent : scan.rest = []) (keyed : S.Keyed t.seen) (member : row ∈ before.seen)
    (unwritten : S.key row ∉ S.keys before.writes) (passes : test row = true)
    (only : ∀ other, test other = true → S.key other = S.key row) : scan.hits = [row] := by
  have single := sofar.single only
  have still : row ∈ t.seen := by
    obtain ⟨lock,inside,rfl⟩ := List.mem_map.mp member
    exact List.mem_map_of_mem (sofar.locked inside)
  have version {found : Row} (source : found ∈ before.writes ∨ found ∈ t.seen)
      (same : S.key found = S.key row) : found = row := by
    rcases source with mine | current
    · exact absurd (Schema.mem_keys.mpr ⟨found,mine,same⟩) unwritten
    · exact keyed found current row still same
  rcases sofar.complete row (.inr ⟨member,unwritten⟩) passes with waiting | done
  · rw [spent] at waiting; cases waiting
  · obtain ⟨found,inside,same⟩ := Schema.mem_keys.mp done
    rcases List.mem_append.mp inside with hit | miss
    · have exact' := version (sofar.hits found hit).2 same
      subst exact'
      match listed : scan.hits with
      | [] => rw [listed] at hit; cases hit
      | [one] => rw [listed] at hit; rw [List.mem_singleton.mp hit]
      | _ :: _ :: _ => rw [listed] at single; simp at single
    · have exact' := version (sofar.misses found miss).2 same
      have fails := (sofar.misses found miss).1
      rw [exact',passes] at fails
      cases fails

-- A statement that has visited all its rows.
structure Completed (S : Schema Row Key) (test : Row → Bool) (change : Option (Row → Row))
    (before t : Tx Row Key) (scan : Scan Row Key) :
    Prop extends Scanning S test change before t scan where
  spent : scan.rest = []
  keyed : S.Keyed t.seen

-- What a transaction remembers of a statement on rows it had not written itself.
structure Scanned (S : Schema Row Key) (test : Row → Bool) (t : Tx Row Key)
    (scan : Scan Row Key) : Prop where
  listed : scan ∈ t.done
  where' : scan.test = test
  hits : ∀ row ∈ scan.hits, test row = true ∧ row ∈ t.seen
  misses : ∀ row ∈ scan.misses, test row = false ∧ row ∈ t.seen

omit [DecidableEq Key] in
theorem Scanned.later (scanned : Scanned S test t scan) (locked : t.locked ⊆ after.locked)
    (done : t.done ⊆ after.done) : Scanned S test after scan := by
  have still {row : Row} : row ∈ t.seen → row ∈ after.seen := by
    intro member
    obtain ⟨lock,inside,rfl⟩ := List.mem_map.mp member
    exact List.mem_map_of_mem (locked inside)
  exact ⟨done scanned.listed,scanned.where',fun row hit => (scanned.hits row hit).imp_right still,
    fun row miss => (scanned.misses row miss).imp_right still⟩

-- The transaction `after` is `before` with one more statement behind it.
def Ran (S : Schema Row Key) (test : Row → Bool) (change : Option (Row → Row))
    (before after : Tx Row Key) (scan : Scan Row Key) : Prop :=
  ∃ t, Completed S test change before t scan ∧ after = t.finished scan

namespace Ran

theorem frame (ran : Ran S test change before after scan) :
    after.scan = none ∧ after.began = before.began ∧ after.done = scan :: before.done ∧
      before.locked ⊆ after.locked := by
  obtain ⟨t,completed,rfl⟩ := ran
  exact ⟨rfl,completed.frame.1,by rw [Tx.finished,completed.frame.2.2],completed.locked⟩

theorem seen {row : Row} (ran : Ran S test change before after scan)
    (member : row ∈ before.seen) : row ∈ after.seen := by
  obtain ⟨lock,inside,rfl⟩ := List.mem_map.mp member
  exact List.mem_map_of_mem (ran.frame.2.2.2 inside)

theorem keyed (ran : Ran S test change before after scan) : S.Keyed after.seen := by
  obtain ⟨t,completed,rfl⟩ := ran
  exact completed.keyed

-- The locks of a statement are on rows its WHERE can name.
theorem locks (P : Key → Prop) (ran : Ran S test change before after scan)
    (old : ∀ lock ∈ before.locked, P (S.key lock.1))
    (new : ∀ row, test row = true → P (S.key row)) : ∀ lock ∈ after.locked, P (S.key lock.1) := by
  obtain ⟨t,completed,rfl⟩ := ran
  intro lock member
  rcases completed.added lock member with earlier | visited
  · exact old lock earlier
  · obtain ⟨row,inside,same⟩ := Schema.mem_keys.mp visited
    obtain ⟨found,passes,also⟩ := completed.visited row inside
    exact same ▸ also ▸ new found passes

theorem single (ran : Ran S test change before after scan)
    (only : ∀ row, test row = true → S.key row = k) : (scan.hits ++ scan.misses).length ≤ 1 := by
  obtain ⟨t,completed,rfl⟩ := ran
  exact completed.toScanning.single only

theorem point {row : Row} (ran : Ran S test change before after scan) (member : row ∈ before.seen)
    (unwritten : S.key row ∉ S.keys before.writes) (passes : test row = true)
    (only : ∀ other, test other = true → S.key other = S.key row) : scan.hits = [row] := by
  obtain ⟨t,completed,rfl⟩ := ran
  exact completed.toScanning.point completed.spent completed.keyed member unwritten passes only

section Fresh
variable (clear : ∀ row, test row = true → S.key row ∉ S.keys before.writes)
include clear

theorem scanned (ran : Ran S test change before after scan) : Scanned S test after scan := by
  obtain ⟨t,completed,rfl⟩ := ran
  have unwritten : ∀ row ∈ scan.hits ++ scan.misses, row ∉ before.writes := by
    intro row member mine
    obtain ⟨found,passes,same⟩ := completed.visited row member
    exact clear found passes (same ▸ Schema.mem_keys.mpr ⟨row,mine,rfl⟩)
  exact ⟨List.mem_cons_self,completed.where',
    fun row hit => (completed.hits row hit).imp_right
      (Or.resolve_left · (unwritten row (List.mem_append_left _ hit))),
    fun row miss => (completed.misses row miss).imp_right
      (Or.resolve_left · (unwritten row (List.mem_append_right _ miss)))⟩

theorem rewrites {f : Row → Row} (ran : Ran S test (some f) before after scan) :
    after.writes = scan.hits.map f ++ before.writes := by
  obtain ⟨t,completed,rfl⟩ := ran
  refine completed.writes.trans (overlay_disjoint fun row mine written => ?_)
  obtain ⟨_,inside,same⟩ := Schema.mem_keys.mp written
  obtain ⟨hit,member,rfl⟩ := List.mem_map.mp inside
  rw [completed.kept f rfl hit member] at same
  exact clear hit (completed.hits hit member).1 (same ▸ Schema.mem_keys.mpr ⟨row,mine,rfl⟩)

end Fresh

theorem reads (ran : Ran S test none before after scan) : after.writes = before.writes := by
  obtain ⟨t,completed,rfl⟩ := ran
  exact completed.writes

end Ran

-- A row the snapshot had is among the hits, or its lock shows a version that no
-- longer passes, or the transaction has written it.
theorem Scanned.covers {base : List Row} {log : List (Entry Row Key)} {row : Row}
    (scanned : Scanned S test t scan) (fits : Fits S base log t)
    (snapshot : row ∈ S.rowsAt base log scan.start) (passes : test row = true) :
    S.key row ∈ S.keys scan.hits ∨ (∃ old ∈ t.seen, test old = false ∧ S.key old = S.key row) ∨
      S.key row ∈ S.keys t.writes := by
  have covered := (fits.scans scan (List.mem_append_right _ scanned.listed)).2.2 row snapshot
    (scanned.where' ▸ passes)
  rcases covered with waiting | found | written
  · rw [fits.spent scan scanned.listed] at waiting
    cases waiting
  · obtain ⟨old,inside,same⟩ := Schema.mem_keys.mp found
    rcases List.mem_append.mp inside with hit | miss
    · exact .inl (Schema.mem_keys.mpr ⟨old,hit,same⟩)
    · exact .inr (.inl ⟨old,(scanned.misses old miss).2,(scanned.misses old miss).1,same⟩)
  · exact .inr (.inr written)

-- A version that has not changed since the snapshot is found as it is.
theorem Scanned.finds {base : List Row} {log : List (Entry Row Key)} {row : Row}
    (scanned : Scanned S test t scan) (fits : Fits S base log t) (keyed : S.Keyed (S.rows base log))
    (current : row ∈ S.rows base log) (passes : test row = true)
    (unwritten : ∀ entry ∈ recent log scan.start, row ∉ entry.tx.writes) :
    row ∈ scan.hits ∨ S.key row ∈ S.keys t.writes := by
  rcases scanned.covers fits (rowsAt_back current unwritten) passes with hit |
    ⟨old,seen,fails,same⟩ | written
  · obtain ⟨old,found,same⟩ := Schema.mem_keys.mp hit
    exact .inl (keyed old (fits.current old (scanned.hits old found).2) row current same ▸ found)
  · cases keyed old (fits.current old seen) row current same
    rw [fails] at passes
    cases passes
  · exact .inr written

-- A statement on one key finds the version that was there all along, and only it.
theorem Ran.finds_point {base : List Row} {log : List (Entry Row Key)} {row : Row}
    (ran : Ran S test none before after scan) (clear : before.writes = [])
    (fits : Fits S base log after) (keyed : S.Keyed (S.rows base log))
    (current : row ∈ S.rows base log) (snapshot : row ∈ S.rowsAt base log scan.start)
    (passes : test row = true)
    (only : ∀ other, test other = true → S.key other = S.key row) : scan.hits = [row] := by
  have scanned : Scanned S test after scan :=
    ran.scanned fun row _ => by rw [clear]; simp [Schema.keys]
  have single := ran.single only
  rcases scanned.covers fits snapshot passes with hit | ⟨old,seen,fails,same⟩ | written
  · obtain ⟨old,found,same⟩ := Schema.mem_keys.mp hit
    cases keyed old (fits.current old (scanned.hits old found).2) row current same
    rcases listed : scan.hits with _ | ⟨one,_ | ⟨_,_⟩⟩
    · rw [listed] at found; cases found
    · rw [listed] at found; rw [List.mem_singleton.mp found]
    · rw [listed] at single; simp at single
  · cases keyed old (fits.current old seen) row current same
    rw [passes] at fails
    cases fails
  · rw [ran.reads,clear] at written
    simp [Schema.keys] at written

end Scan

section Store
variable {s after : Store Row Key}

theorem find_keyed {rows : List Row} {row : Row} (keyed : S.Keyed rows) (member : row ∈ rows) :
    rows.find? (S.key · = S.key row) = some row := by
  cases found : rows.find? (S.key · = S.key row) with
  | none => simpa using List.find?_eq_none.mp found row member
  | some old =>
      have same : S.key old = S.key row := by simpa using List.find?_some found
      rw [keyed old (List.mem_of_find?_eq_some found) row member same]

theorem knows_visible {t : Tx Row Key} {row : Row} (valid : Valid S s)
    (running : s.txs pid = some t) (known : t.Knows S row) : row ∈ s.visible S t := by
  rcases known with mine | ⟨seen,unwritten⟩
  · exact Schema.mem_overlay.mpr (.inl mine)
  · exact Schema.mem_overlay.mpr (.inr ⟨(valid.fits pid t running).current row seen,unwritten⟩)

theorem start_step (change : Option (Row → Row)) (valid : Valid S s)
    (ran : s.start S pid test order = some after) :
    ∃ t next, s.txs pid = some t ∧ after = s.set pid next ∧ StatementStep S test change t next := by
  obtain ⟨t,running,idle,distinct,found,covers,rfl⟩ := start_parts ran
  exact ⟨t,_,running,rfl,.start idle distinct found fun row known =>
    covers row (knows_visible valid running known)⟩

theorem visit_step (test : Row → Bool) (valid : Valid S s)
    (ran : s.visit S pid change = some after) :
    ∃ t next, s.txs pid = some t ∧ after = s.set pid next ∧ StatementStep S test change t next := by
  obtain ⟨t,scan,k,rest,row,running,scanning,next,found,_,permitted,rfl⟩ := visit_parts ran
  have keyed : S.key row = k := by simpa using List.find?_some found
  subst keyed
  refine ⟨t,_,running,rfl,.visit scanning next ?_ ?_ ?_⟩
  · rcases Schema.mem_overlay.mp (List.mem_of_find?_eq_some found) with mine | ⟨current,_⟩
    · exact .inl mine
    · refine .inr ⟨find_keyed valid.chronicle.keyed current,fun old member same => ?_⟩
      exact valid.chronicle.keyed old ((valid.fits pid t running).current old member) row current
        same
  · intro old hit
    simpa using List.find?_some hit
  · rintro passes f ⟨⟩
    have allowed := permitted passes
    simp only [Store.permitted,Bool.and_eq_true,decide_eq_true_eq] at allowed
    exact allowed.1

end Store
end RestApi.RowStore
