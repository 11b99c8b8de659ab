import Mathlib.Data.List.Nodup
import RestApi.Pool

namespace RestApi.RowStore
open Pool

-- Tables as one set of rows. `clash` is what the unique indexes forbid between
-- two rows with different primary keys.
structure Schema (Row Key : Type) where
  key : Row → Key
  clash : Row → Row → Bool
  symm : ∀ a b, clash a b = clash b a

-- One locking statement: where in the commit log it took its snapshot, which of
-- the rows it found there it still has to visit, and the row versions that did
-- and did not pass its WHERE once it held their locks.
structure Scan (Row Key : Type) where
  start : Nat
  test : Row → Bool
  rest : List Key
  hits : List Row
  misses : List Row

-- `locked` has the committed version under each row lock and the time the lock
-- was obtained; locks are kept until the end.
structure Tx (Row Key : Type) where
  began : Int
  since : Nat
  locked : List (Row × Int)
  writes : List Row
  done : List (Scan Row Key)
  scan : Option (Scan Row Key)

structure Entry (Row Key : Type) where
  owner : Pid
  time : Int
  tx : Tx Row Key

-- The committed rows are what the log, newest first, makes of `base`.
structure Store (Row Key : Type) where
  base : List Row
  log : List (Entry Row Key)
  txs : Pid → Option (Tx Row Key)
  active : List Pid
  serial : Nat
  now : Int

variable {Row Key : Type}

namespace Schema

section Keys
variable (S : Schema Row Key)

def keys (rows : List Row) : List Key := rows.map S.key

-- No two versions of one row, no two rows a unique index would refuse.
def Keyed (rows : List Row) : Prop := ∀ a ∈ rows, ∀ b ∈ rows, S.key a = S.key b → a = b
def Apart (rows : List Row) : Prop :=
  ∀ a ∈ rows, ∀ b ∈ rows, S.key a ≠ S.key b → S.clash a b = false

variable {S}

theorem mem_keys {rows : List Row} {k : Key} : k ∈ S.keys rows ↔ ∃ row ∈ rows, S.key row = k :=
  List.mem_map

end Keys

variable [DecidableEq Key] (S : Schema Row Key)

def overlay (rows writes : List Row) : List Row :=
  writes ++ rows.filter fun row => S.key row ∉ S.keys writes

def rows (base : List Row) : List (Entry Row Key) → List Row
  | [] => base
  | entry :: older => S.overlay (rows base older) entry.tx.writes

-- The committed rows after the first `n` commits.
def rowsAt (base : List Row) (log : List (Entry Row Key)) (n : Nat) : List Row :=
  S.rows base (log.drop (log.length-n))

variable {S}

theorem mem_overlay {rows writes : List Row} {row : Row} :
    row ∈ S.overlay rows writes ↔ row ∈ writes ∨ row ∈ rows ∧ S.key row ∉ S.keys writes := by
  simp [overlay]

theorem overlay_nil (rows : List Row) : S.overlay rows [] = rows := by simp [overlay,keys]

theorem keyed_overlay {rows writes : List Row} (older : S.Keyed rows) (newer : S.Keyed writes) :
    S.Keyed (S.overlay rows writes) := by
  intro a first b second same
  rcases mem_overlay.mp first with written | ⟨kept,untouched⟩
  · rcases mem_overlay.mp second with also | ⟨_,clear⟩
    · exact newer a written b also same
    · exact absurd (mem_keys.mpr ⟨a,written,same⟩) clear
  · rcases mem_overlay.mp second with also | ⟨other,_⟩
    · exact absurd (mem_keys.mpr ⟨b,also,same.symm⟩) untouched
    · exact older a kept b other same

-- A row of the newer state is an older row or was written in between.
theorem mem_rows_cons {base : List Row} {entry : Entry Row Key} {older : List (Entry Row Key)}
    {row : Row} :
    row ∈ S.rows base (entry :: older) ↔
      row ∈ entry.tx.writes ∨ row ∈ S.rows base older ∧ S.key row ∉ S.keys entry.tx.writes :=
  mem_overlay

-- An older row is still there unless a newer version has its key.
theorem kept_or_written {base : List Row} {older : List (Entry Row Key)} {row : Row}
    (entry : Entry Row Key) (member : row ∈ S.rows base older) :
    row ∈ S.rows base (entry :: older) ∨ ∃ newer ∈ entry.tx.writes, S.key newer = S.key row ∧
      newer ∈ S.rows base (entry :: older) := by
  by_cases written : S.key row ∈ S.keys entry.tx.writes
  · obtain ⟨newer,wrote,same⟩ := mem_keys.mp written
    exact .inr ⟨newer,wrote,same,mem_rows_cons.mpr (.inl wrote)⟩
  · exact .inl (mem_rows_cons.mpr (.inr ⟨member,written⟩))

theorem rowsAt_cons {base : List Row} {entry : Entry Row Key} {log : List (Entry Row Key)} {n : Nat}
    (past : n ≤ log.length) : S.rowsAt base (entry :: log) n = S.rowsAt base log n := by
  have shift : (entry :: log).length-n = (log.length-n)+1 := by simp only [List.length_cons]; omega
  rw [rowsAt,shift,List.drop_succ_cons,rowsAt]

theorem rowsAt_length (base : List Row) (log : List (Entry Row Key)) :
    S.rowsAt base log log.length = S.rows base log := by
  simp [rowsAt]

-- A key never disappears.
theorem overlay_keys {rows : List Row} {k : Key} (writes : List Row) (present : k ∈ S.keys rows) :
    k ∈ S.keys (S.overlay rows writes) := by
  obtain ⟨row,member,rfl⟩ := mem_keys.mp present
  by_cases written : S.key row ∈ S.keys writes
  · obtain ⟨newer,wrote,same⟩ := mem_keys.mp written
    exact mem_keys.mpr ⟨newer,mem_overlay.mpr (.inl wrote),same⟩
  · exact mem_keys.mpr ⟨row,mem_overlay.mpr (.inr ⟨member,written⟩),rfl⟩

end Schema

namespace Tx
variable [DecidableEq Key]

def empty (now : Int) (since : Nat) : Tx Row Key := ⟨now,since,[],[],[],none⟩
def seen (t : Tx Row Key) : List Row := t.locked.map Prod.fst

variable (S : Schema Row Key)

def holds (t : Tx Row Key) (k : Key) : Prop := k ∈ S.keys t.seen
instance (t : Tx Row Key) (k : Key) : Decidable (t.holds S k) := inferInstanceAs (Decidable (_ ∈ _))

-- A lock is taken on a committed version; a row this transaction inserted is
-- invisible to the others and needs none.
def lock (t : Tx Row Key) (committed : Option Row) (now : Int) : Tx Row Key := match committed with
  | some row => if t.holds S (S.key row) then t else {t with locked := (row,now) :: t.locked}
  | none => t

def put (t : Tx Row Key) (row : Row) : Tx Row Key :=
  {t with writes := row :: t.writes.filter fun old => S.key old ≠ S.key row}

-- One visit of a scan: `row` is the version this transaction must use for its
-- next key, read again under the lock.
def visited (t : Tx Row Key) (scan : Scan Row Key) (rest : List Key) (committed : Option Row)
    (now : Int) (row : Row) (change : Option (Row → Row)) : Tx Row Key :=
  let locked := t.lock S committed now
  if scan.test row then
    match change with
    | none => {locked with scan := some {scan with rest := rest,hits := row :: scan.hits}}
    | some f =>
        {locked.put S (f row) with scan := some {scan with rest := rest,hits := row :: scan.hits}}
  else {locked with scan := some {scan with rest := rest,misses := row :: scan.misses}}

def finished (t : Tx Row Key) (scan : Scan Row Key) : Tx Row Key :=
  {t with scan := none,done := scan :: t.done}

end Tx

namespace Store
variable [DecidableEq Key] (S : Schema Row Key)

def committed (s : Store Row Key) : List Row := S.rows s.base s.log
def visible (s : Store Row Key) (t : Tx Row Key) : List Row := S.overlay (s.committed S) t.writes
def set (s : Store Row Key) (pid : Pid) (t : Tx Row Key) : Store Row Key :=
  {s with txs := Function.update s.txs pid (some t)}

def others (s : Store Row Key) (pid : Pid) : List (Tx Row Key) :=
  s.active.filterMap fun other => if other = pid then none else s.txs other

def unlocked (s : Store Row Key) (pid : Pid) (k : Key) : Bool :=
  (s.others pid).all fun other => !other.holds S k

-- Whether the unique indexes let this version in. A version another open
-- transaction has written is waited for, not decided.
def free (s : Store Row Key) (pid : Pid) (t : Tx Row Key) (row : Row) : Bool :=
  (s.visible S t).all (fun old => S.key old = S.key row || !S.clash old row) &&
    (s.others pid).all fun other => other.writes.all fun pending =>
      S.key pending ≠ S.key row && !S.clash pending row

def violates (s : Store Row Key) (t : Tx Row Key) (row : Row) : Bool :=
  (s.visible S t).any fun old => S.key old = S.key row || S.clash old row

def openTx (s : Store Row Key) (pid : Pid) : Option (Store Row Key) := match s.txs pid with
  | some _ => none
  | none =>
      some {s with
        txs := Function.update s.txs pid (some (.empty s.now s.log.length)),active := pid :: s.active}

-- Also what an SQL error or a lost connection does: the transaction is aborted
-- at once and its locks are gone.
def rollback (s : Store Row Key) (pid : Pid) : Store Row Key :=
  {s with txs := Function.update s.txs pid none}

def commit (s : Store Row Key) (pid : Pid) : Option (Store Row Key) := match s.txs pid with
  | some t =>
      if t.scan.isNone then
        some {s with log := ⟨pid,s.now,t⟩ :: s.log,txs := Function.update s.txs pid none}
      else none
  | none => none

def select (s : Store Row Key) (test : Row → Bool) : List Row := (s.committed S).filter test

-- SELECT .. FOR UPDATE and UPDATE: a snapshot of the committed rows (and of its
-- own writes) decides which rows are visited, in an order the plan chooses.
def start (s : Store Row Key) (pid : Pid) (test : Row → Bool)
    (order : List Key) : Option (Store Row Key) :=
  match s.txs pid with
  | some t =>
      let found := S.keys ((s.visible S t).filter test)
      if t.scan.isNone ∧ order.Nodup ∧ order ⊆ found ∧ found ⊆ order then
        some (s.set pid {t with scan := some ⟨s.log.length,test,order,[],[]⟩})
      else none
  | none => none

def permitted (s : Store Row Key) (pid : Pid) (t : Tx Row Key) (row : Row) :
    Option (Row → Row) → Bool
  | none => true
  | some f => S.key (f row) = S.key row && s.free S pid t (f row)

-- The next row of the scan, blocked while another transaction holds its lock.
def visit (s : Store Row Key) (pid : Pid) (change : Option (Row → Row)) : Option (Store Row Key) :=
  match s.txs pid with
  | some t => match t.scan with
      | some ⟨snapshot,test,k :: rest,hits,misses⟩ =>
          match (s.visible S t).find? (S.key · = k) with
          | some row =>
              if s.unlocked S pid k ∧ (test row → s.permitted S pid t row change) then
                some (s.set pid (t.visited S ⟨snapshot,test,k :: rest,hits,misses⟩ rest
                  ((s.committed S).find? (S.key · = k)) s.now row change))
              else none
          | none => none
      | _ => none
  | none => none

def finish (s : Store Row Key) (pid : Pid) : Option (Store Row Key × List Row) :=
  match s.txs pid with
  | some t => match t.scan with
      | some scan =>
          if scan.rest.isEmpty then some (s.set pid (t.finished scan),scan.hits) else none
      | none => none
  | none => none

-- Identity columns draw from `serial`, which no rollback returns.
def insert (s : Store Row Key) (pid : Pid) (make : Nat → Row) : Option (Store Row Key × Row) :=
  match s.txs pid with
  | some t =>
      let row := make s.serial
      if t.scan.isNone ∧ S.key row ∉ S.keys (s.visible S t) ∧ s.free S pid t row then
        some ({s.set pid (t.put S row) with serial := s.serial+1},row)
      else none
  | none => none

def tick (s : Store Row Key) (elapsed : Nat) : Store Row Key := {s with now := s.now+elapsed}

end Store
end RestApi.RowStore
