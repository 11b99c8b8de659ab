import Mathlib.Data.Finset.Dedup
import Mathlib.Data.Finset.Image
import RestApi.RowChanges

namespace RestApi.Serial
open Pool Program RowStore Service

-- The tables as the only request in the system sees them; during a transaction
-- also its start and its own version of the rows.
structure Desk where
  rows : Finset Row
  tx : Option (Time × Finset Row)

-- What primary keys and unique indexes allow in a table.
def Legal (rows : Finset Row) : Prop :=
  ∀ a ∈ rows, ∀ b ∈ rows, (a.key = b.key → a = b) ∧ (a.key ≠ b.key → schema.clash a b = false)

-- Every row that passes, once, in some order.
def Finds (rows : Finset Row) (test : Row → Bool) (found : List Row) : Prop :=
  found.Nodup ∧ ∀ row, row ∈ found ↔ row ∈ rows ∧ test row = true

def rewrite (rows : Finset Row) (test : Row → Bool) (change : Row → Row) : Finset Row :=
  rows.image fun row => if test row then change row else row

-- Commands that touch no table.
def away : Cmd → Bool
  | .sign _ _ => true
  | .verify _ => true
  | .redisSet _ _ _ _ => true
  | .redisSetNX _ _ _ => true
  | .redisTTL _ => true
  | .mget _ _ => true
  | .produce _ => true
  | .put _ => true
  | .asyncDelete _ => true
  | _ => false

-- One command at once, without locks, snapshots or waiting. `told` limits what
-- the clock and the random sources may answer. A statement that a unique index
-- refuses has no outcome here, so neither has the request.
inductive Atomic (cfg : Config) (told : Event → Prop) (d : Desk) :
    (c : Cmd) → Option (Reply c) → Desk → Prop where
  | clock (heard : told (.clock time)) : Atomic cfg told d .clock (some time) d
  | uuid (heard : told (.uuid drawn)) : Atomic cfg told d .newUUID (some (.ok drawn)) d
  | token (heard : told (.token raw)) : Atomic cfg told d .opaqueToken (some (.ok raw)) d
  | hashed (short : plain.utf8ByteSize ≤ 72)
      (verifies : cfg.compareHashAndPassword digest plain = true) :
      Atomic cfg told d (.bcrypt plain) (some (.ok digest)) d
  | unhashed (long : 72 < plain.utf8ByteSize) :
      Atomic cfg told d (.bcrypt plain) (some (.error ())) d
  | selected (finds : Finds d.rows test found) :
      Atomic cfg told d (.select test) (some (.ok found)) d
  | opened (idle : d.tx = none) :
      Atomic cfg told d .openTx (some (.ok ())) {d with tx := some (began,d.rows)}
  | locked (running : d.tx = some (began,draft)) (finds : Finds draft test found) :
      Atomic cfg told d (.lock test) (some (.ok found)) d
  | updated (running : d.tx = some (began,draft)) (finds : Finds draft test found)
      (legal : Legal (rewrite draft test (change began))) :
      Atomic cfg told d (.update test change) (some (.ok (found.map (change began))))
        {d with tx := some (began,rewrite draft test (change began))}
  | inserted (running : d.tx = some (began,draft))
      (fresh : ∀ old ∈ draft, old.key ≠ (make began serial).key)
      (legal : Legal (insert (make began serial) draft)) :
      Atomic cfg told d (.insert make) (some (.ok (make began serial)))
        {d with tx := some (began,insert (make began serial) draft)}
  | committed (running : d.tx = some (began,draft)) :
      Atomic cfg told d .commit (some (.ok ())) ⟨draft,none⟩
  | rolledBack : Atomic cfg told d .rollback (some ()) {d with tx := none}
  | outside (elsewhere : away c = true) : Atomic cfg told d c (some answer) d

-- Requests one after another, the latest first: each finds the rows as the one
-- before left them, runs to its end and succeeds.
inductive InTurn (cfg : Config) (told : Pid → Event → Prop) (requests : Pid → Option Request)
    (base : Finset Row) : List Pid → Finset Row → Prop where
  | start : InTurn cfg told requests base [] base
  | next (past : InTurn cfg told requests base order rows) (asked : requests pid = some request)
      (ran : Runs (Atomic cfg (told pid)) (serve cfg request) ⟨rows,none⟩ (.ok value) ⟨after,none⟩)
      : InTurn cfg told requests base (pid :: order) after

section Tables
variable {rows writes : List Row} {draft : Finset Row} {test : Row → Bool} {change : Row → Row}
  {row : Row}

theorem finds_point (legal : Legal draft) (member : row ∈ draft) (passes : test row = true)
    (only : ∀ other, test other = true → other.key = row.key) : Finds draft test [row] := by
  refine ⟨List.nodup_singleton row,fun other => ⟨fun same => ?_,fun ⟨there,also⟩ => ?_⟩⟩
  · cases List.mem_singleton.mp same
    exact ⟨member,passes⟩
  · exact List.mem_singleton.mpr ((legal other there row member).1 (only other also))

-- A rewrite that leaves the indexed columns alone breaks no index.
theorem legal_rewrite (legal : Legal draft)
    (keeps : ∀ row ∈ draft, test row = true → (change row).key = row.key ∧
      ∀ other, schema.clash (change row) other = schema.clash row other) :
    Legal (rewrite draft test change) := by
  have same : ∀ row ∈ draft, (if test row then change row else row).key = row.key ∧
      ∀ other, schema.clash (if test row then change row else row) other =
          schema.clash row other := by
    intro row member
    split
    · exact keeps row member (by assumption)
    · exact ⟨rfl,fun _ => rfl⟩
  intro a first b second
  obtain ⟨old,member,rfl⟩ := Finset.mem_image.mp first
  obtain ⟨old',member',rfl⟩ := Finset.mem_image.mp second
  obtain ⟨key,clash⟩ := same old member
  obtain ⟨key',clash'⟩ := same old' member'
  rw [key,key']
  refine ⟨fun equal => ?_,fun different => ?_⟩
  · rw [(legal old member old' member').1 equal]
  · rw [clash,schema.symm,clash',schema.symm]
    exact (legal old member old' member').2 different

theorem legal_audit {record : AuditEntry} (legal : Legal draft)
    (fresh : ∀ old ∈ draft, old.key ≠ .audit record.id) : Legal (insert (.audit record) draft) := by
  have clear : ∀ other, schema.clash (.audit record) other = false := by
    intro other; cases other <;> rfl
  intro a first b second
  rcases Finset.mem_insert.mp first with rfl | old
  · rcases Finset.mem_insert.mp second with rfl | old
    · exact ⟨fun _ => rfl,fun different => absurd rfl different⟩
    · exact ⟨fun same => absurd same.symm (fresh b old),fun _ => clear b⟩
  · rcases Finset.mem_insert.mp second with rfl | old'
    · exact ⟨fun same => absurd same (fresh a old),fun _ => schema.symm a _ ▸ clear a⟩
    · exact legal a old b old'

theorem mem_draft : row ∈ (schema.overlay rows writes).toFinset ↔
    row ∈ writes ∨ row ∈ rows ∧ schema.key row ∉ schema.keys writes := by
  rw [List.mem_toFinset,Schema.mem_overlay]

-- An update of rows the transaction has not written yet adds to its writes.
theorem draft_rewrite {found : List Row} (keyed : schema.Keyed rows)
    (clear : ∀ row ∈ writes, test row = false)
    (keeps : ∀ row, test row = true → (change row).key = row.key)
    (finds : Finds (schema.overlay rows writes).toFinset test found) :
    rewrite (schema.overlay rows writes).toFinset test change =
      (schema.overlay rows (found.map change ++ writes)).toFinset := by
  have hit {row : Row} (member : row ∈ found) : row ∈ rows ∧
      schema.key row ∉ schema.keys writes := by
    obtain ⟨there,passes⟩ := (finds.2 row).mp member
    refine (mem_draft.mp there).resolve_left fun wrote => ?_
    rw [clear row wrote] at passes
    cases passes
  have changed : schema.keys (found.map change ++ writes) = schema.keys found ++
      schema.keys writes := by
    simp only [Schema.keys,List.map_append,List.map_map]
    congr 1
    exact List.map_congr_left fun row member => keeps row ((finds.2 row).mp member).2
  ext row
  rw [mem_draft,changed,List.mem_append,List.mem_append,not_or]
  constructor
  · intro member
    obtain ⟨old,there,rfl⟩ := Finset.mem_image.mp member
    by_cases passes : test old = true
    · rw [if_pos passes]
      exact .inl (.inl (List.mem_map_of_mem ((finds.2 old).mpr ⟨there,passes⟩)))
    · rw [if_neg passes]
      rcases mem_draft.mp there with wrote | ⟨kept,untouched⟩
      · exact .inl (.inr wrote)
      · refine .inr ⟨kept,fun again => ?_,untouched⟩
        obtain ⟨other,found,same⟩ := Schema.mem_keys.mp again
        cases keyed other (hit found).1 old kept same
        exact passes ((finds.2 _).mp found).2
  · intro member
    rcases member with (swept | wrote) | ⟨kept,unfound,untouched⟩
    · obtain ⟨old,found,rfl⟩ := List.mem_map.mp swept
      obtain ⟨there,passes⟩ := (finds.2 old).mp found
      exact Finset.mem_image.mpr ⟨old,there,if_pos passes⟩
    · exact Finset.mem_image.mpr ⟨row,mem_draft.mpr (.inl wrote),by simp [clear row wrote]⟩
    · refine Finset.mem_image.mpr ⟨row,mem_draft.mpr (.inr ⟨kept,untouched⟩),
        if_neg fun passes => unfound ?_⟩
      exact Schema.mem_keys.mpr ⟨row,(finds.2 row).mpr ⟨mem_draft.mpr (.inr ⟨kept,untouched⟩),
        passes⟩,rfl⟩

theorem draft_insert (fresh : schema.key row ∉ schema.keys rows) :
    insert row (schema.overlay rows writes).toFinset =
      (schema.overlay rows (row :: writes)).toFinset := by
  ext other
  rw [Finset.mem_insert,mem_draft,mem_draft,List.mem_cons]
  constructor
  · rintro (rfl | wrote | ⟨kept,untouched⟩)
    · exact .inl (.inl rfl)
    · exact .inl (.inr wrote)
    · refine .inr ⟨kept,fun written => ?_⟩
      rcases List.mem_cons.mp written with same | old
      · exact fresh (same ▸ Schema.mem_keys.mpr ⟨other,kept,rfl⟩)
      · exact untouched old
  · rintro ((rfl | wrote) | ⟨kept,untouched⟩)
    · exact .inl rfl
    · exact .inr (.inl wrote)
    · exact .inr (.inr ⟨kept,fun written => untouched (List.mem_cons_of_mem _ written)⟩)

theorem draft_congr {other : List Row} (same : ∀ row, row ∈ writes ↔ row ∈ other) :
    (schema.overlay rows writes).toFinset = (schema.overlay rows other).toFinset := by
  ext row
  have keys : schema.key row ∈ schema.keys writes ↔ schema.key row ∈ schema.keys other := by
    simp only [Schema.mem_keys,same]
  rw [mem_draft,mem_draft,same,keys]

end Tables

-- A request in its transaction, with what it has written so far.
def within (rows : List Row) (began : Time) (writes : List Row) : Desk :=
  ⟨rows.toFinset,some (began,(schema.overlay rows writes).toFinset)⟩

section Rules
variable {cfg : Config} {told : Event → Prop} {rows writes : List Row} {began : Time}
  {test : Row → Bool} {d : Desk}

theorem now_runs (heard : told (.clock time)) : Runs (Atomic cfg told) now d (.ok time) d :=
  .call (.clock heard) .done

theorem newUUID_runs (heard : told (.uuid drawn)) :
    Runs (Atomic cfg told) newUUID d (.ok drawn) d :=
  .call (.uuid heard) .done

theorem hashPassword_runs (short : plain.utf8ByteSize ≤ 72)
    (verifies : cfg.compareHashAndPassword digest plain = true) :
    Runs (Atomic cfg told) (hashPassword plain) d (.ok digest) d :=
  .call (.hashed short verifies) .done

theorem verifyPassword_runs (verifies : cfg.compareHashAndPassword digest plain = true) :
    Runs (Atomic cfg told) (verifyPassword cfg plain digest) d (.ok ()) d := by
  rw [verifyPassword,if_pos verifies]
  exact .done

theorem transact_runs {body : Service α} (began : Time)
    (ran : Runs (Atomic cfg told) body (within rows began []) (.ok value)
      (within rows began writes)) :
    Runs (Atomic cfg told) (transact body) ⟨rows.toFinset,none⟩ (.ok value)
      ⟨(schema.overlay rows writes).toFinset,none⟩ := by
  rw [within,Schema.overlay_nil] at ran
  exact .call (.opened rfl) (runs_settle ran (.call (.committed rfl) .done))

theorem select_runs {pick : Row → Option α} (finds : Finds d.rows test [row])
    (picked : pick row = some value) :
    Runs (Atomic cfg told) (query .pool test (scanOne pick missing text)) d (.ok value) d := by
  refine .call (.selected finds) ?_
  simp only [scanOne,picked]
  exact .done

theorem lock_runs {pick : Row → Option α}
    (finds : Finds (schema.overlay rows writes).toFinset test [row])
    (picked : pick row = some value) :
    Runs (Atomic cfg told) (query .tx test (scanOne pick missing text))
      (within rows began writes) (.ok value) (within rows began writes) := by
  refine .call (.locked rfl finds) ?_
  simp only [scanOne,picked]
  exact .done

-- What an UPDATE needs so that its rows simply join the writes.
structure Adds (rows writes : List Row) (test : Row → Bool) (change : Row → Row)
    (found : List Row) : Prop where
  keyed : schema.Keyed rows
  legal : Legal (schema.overlay rows writes).toFinset
  clear : ∀ row ∈ writes, test row = false
  finds : Finds (schema.overlay rows writes).toFinset test found
  keeps : ∀ row, test row = true → (change row).key = row.key
  indexed : ∀ row ∈ (schema.overlay rows writes).toFinset, test row = true →
    ∀ other, schema.clash (change row) other = schema.clash row other

theorem Adds.stays {change : Row → Row} (adds : Adds rows writes test change found) :
    Legal (schema.overlay rows (found.map change ++ writes)).toFinset := by
  rw [← draft_rewrite adds.keyed adds.clear adds.keeps adds.finds]
  exact legal_rewrite adds.legal fun row member passes =>
    ⟨adds.keeps row passes,adds.indexed row member passes⟩

theorem update_runs {change : Time → Row → Row} {next : Except SqlError (List Row) → Service α}
    (adds : Adds rows writes test (change began) found)
    (rest : Runs (Atomic cfg told) (next (.ok (found.map (change began))))
      (within rows began (found.map (change began) ++ writes)) result last) :
    Runs (Atomic cfg told) (.call (.update test change) next)
      (within rows began writes) result last := by
  refine .call (.updated rfl adds.finds ?_) ?_
  · rw [draft_rewrite adds.keyed adds.clear adds.keeps adds.finds]
    exact adds.stays
  · rw [draft_rewrite adds.keyed adds.clear adds.keeps adds.finds]
    exact rest

theorem recordAudit_runs (legal : Legal (schema.overlay rows writes).toFinset)
    (fresh : .audit serial ∉ schema.keys rows) (unwritten : .audit serial ∉ schema.keys writes) :
    Runs (Atomic cfg told) (recordAudit ctx record) (within rows began writes)
      (.ok ()) (within rows began (.audit (auditEntry ctx record began serial) :: writes)) := by
  have unused : ∀ old ∈ (schema.overlay rows writes).toFinset, old.key ≠ .audit serial := by
    intro old member same
    rcases mem_draft.mp member with wrote | ⟨kept,_⟩
    · exact unwritten (Schema.mem_keys.mpr ⟨old,wrote,same⟩)
    · exact fresh (Schema.mem_keys.mpr ⟨old,kept,same⟩)
  have grown : insert (.audit (auditEntry ctx record began serial))
    (schema.overlay rows writes).toFinset = _ := draft_insert fresh
  refine .call (.inserted rfl unused (legal_audit legal unused)) ?_
  rw [grown]
  exact .done

theorem cleanup_runs (heard : told (.clock time)) :
    Runs (Atomic cfg told) (cleanupDeadline) d (.ok (time+5*second)) d :=
  runs_bind (now_runs heard) .done

theorem revokeAllForUser_runs (heard : told (.clock time)) :
    Runs (Atomic cfg told) (revokeAllForUser cfg userID deadline) d (.ok ()) d := by
  unfold revokeAllForUser
  split
  · exact .done
  · have set : Atomic cfg told d (.redisSet (revokedUserKey userID) (formatInt time)
      (revocationTTL cfg.jwtTTL) deadline) (some (.ok ())) d := .outside rfl
    exact runs_bind (now_runs heard) (.call set .done)

end Rules
end RestApi.Serial
