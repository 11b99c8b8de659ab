import Mathlib.Algebra.Group.Nat.Defs
import Mathlib.Data.List.Nodup
import RestApi.Windows
import RestApi.SearchEcho

namespace RestApi.Query
open Windows

-- A column value that is not NULL. UUIDs are compared by their canonical text,
-- which orders them as their bytes do.
inductive Scalar where
  | text (value : String)
  | instant (value : Time)
  deriving DecidableEq, Repr

def Arg.scalar : Arg → Scalar
  | .text value => .text value
  | .uuid value => .text value
  | .time value => .instant value.instant
  | .other _ shown => .text shown

def Scalar.le : Scalar → Scalar → Bool
  | .text a,.text b => decide (a ≤ b)
  | .text _,.instant _ => true
  | .instant _,.text _ => false
  | .instant a,.instant b => decide (a ≤ b)

-- NULL sorts last.
def nullsLast : Option Scalar → Option Scalar → Bool
  | _,none => true
  | none,some _ => false
  | some a,some b => a.le b

-- LIKE and ILIKE are the database's own.
structure Database where
  like : String → String → Bool
  ilike : String → String → Bool

section Meaning
variable {Row : Type} (db : Database) (column : Row → String → Option Scalar)

def argAt (args : List Arg) (n : Nat) : Option Scalar := (args[n - 1]?).map Arg.scalar

def textMatch (test : String → String → Bool) : Option Scalar → Option Scalar → Bool
  | some (.text value),some (.text pattern) => test value pattern
  | _,_ => false

-- A comparison with NULL is not true.
def Conjunct.holds (args : List Arg) (row : Row) : Conjunct → Bool
  | .isIn name placeholders =>
      (column row name).any fun value => placeholders.any fun n => argAt args n = some value
  | .isNull name => (column row name).isNone
  | .isNotNull name => (column row name).isSome
  | .like name n => textMatch db.like (column row name) (argAt args n)
  | .ilike name n => textMatch db.ilike (column row name) (argAt args n)
  | .atLeast name n =>
      (column row name).any fun value => (argAt args n).any fun bound => bound.le value
  | .below name n =>
      (column row name).any fun value => (argAt args n).any fun bound => !bound.le value

def QueryBuilder.selects (q : QueryBuilder) (row : Row) : Bool :=
  q.wheres.all (Conjunct.holds db column q.args row)

def QueryBuilder.precedes (q : QueryBuilder) (a b : Row) : Bool :=
  match q.orderBy with
  | none => true
  | some o =>
    if o.order = "DESC" then nullsLast (column b o.column) (column a o.column)
    else nullsLast (column a o.column) (column b o.column)

-- The database may answer with any arrangement that ORDER BY allows.
def QueryBuilder.Returns (q : QueryBuilder) (rows answer : List Row) : Prop :=
  ∃ arranged, Arranges (q.precedes column · ·) (rows.filter (q.selects db column)) arranged ∧
    answer = if 0 < q.limit then (arranged.drop q.offset.toInt.toNat).take q.limit.toInt.toNat
      else arranged

def QueryBuilder.counts (q : QueryBuilder) (rows : List Row) : Int64 :=
  Int64.ofNat (rows.filter (q.selects db column)).length

-- Every placeholder is the number of an argument already there.
def QueryBuilder.Closed (q : QueryBuilder) : Prop :=
  ∀ c ∈ q.wheres, ∀ n ∈ c.placeholders, 1 ≤ n ∧ n ≤ q.args.length

variable {db column}

theorem argAt_append (inside : 1 ≤ n ∧ n ≤ args.length) (more : List Arg) :
    argAt (args ++ more) n = argAt args n := by
  unfold argAt
  rw [List.getElem?_append_left (by omega)]

theorem any_congr_mem {xs : List α} {p q : α → Bool}
    (same : ∀ x ∈ xs, p x = q x) : xs.any p = xs.any q := by
  rw [Bool.eq_iff_iff,List.any_eq_true,List.any_eq_true]
  exact exists_congr fun x => and_congr_right fun member => by rw [same x member]

theorem holds_append (c : Conjunct) (inside : ∀ n ∈ c.placeholders, 1 ≤ n ∧ n ≤ args.length)
    (more : List Arg) (row : Row) :
    c.holds db column (args ++ more) row = c.holds db column args row := by
  have each : ∀ n ∈ c.placeholders, argAt (args ++ more) n = argAt args n :=
    fun n member => argAt_append (inside n member) more
  cases c with
  | isNull name => rfl
  | isNotNull name => rfl
  | isIn name ns =>
      have any : ∀ value, (ns.any fun n => argAt (args ++ more) n = some value) = ns.any fun n =>
        argAt args n = some value :=
        fun value => any_congr_mem fun n member => by rw [each n member]
      simp only [Conjunct.holds,any]
  | like name n => simp only [Conjunct.holds,each n (List.mem_singleton_self n)]
  | ilike name n => simp only [Conjunct.holds,each n (List.mem_singleton_self n)]
  | atLeast name n => simp only [Conjunct.holds,each n (List.mem_singleton_self n)]
  | below name n => simp only [Conjunct.holds,each n (List.mem_singleton_self n)]

-- Adding to the WHERE clause keeps what the earlier conjuncts mean.
structure Narrows (db : Database) (column : Row → String → Option Scalar) (test : Row → Bool)
    (q r : QueryBuilder) : Prop where
  offset : r.offset = q.offset
  orderBy : r.orderBy = q.orderBy
  closed : r.Closed
  selects : ∀ row, r.selects db column row = (q.selects db column row && test row)

theorem Narrows.trans (one : Narrows db column f q r) (two : Narrows db column g r t) :
    Narrows db column (fun row => f row && g row) q t where
  offset := two.offset.trans one.offset
  orderBy := two.orderBy.trans one.orderBy
  closed := two.closed
  selects row := by rw [two.selects,one.selects,Bool.and_assoc]

theorem addWhere_narrows (closed : q.Closed) (conjunct : Conjunct) (more : List Arg)
    (inside : ∀ n ∈ conjunct.placeholders, 1 ≤ n ∧ n ≤ q.args.length + more.length) :
    Narrows db column (conjunct.holds db column (q.args ++ more)) q
      (QueryBuilder.addWhere {q with args := q.args ++ more} conjunct) where
  offset := rfl
  orderBy := rfl
  closed := by
    intro c member n held
    unfold QueryBuilder.addWhere at member ⊢
    simp only [List.mem_append,List.mem_singleton,List.length_append] at member ⊢
    rcases member with old | rfl
    · have := closed c old n held
      omega
    · exact inside n held
  selects row := by
    have old : q.wheres.all (Conjunct.holds db column (q.args ++ more) row) =
        q.wheres.all (Conjunct.holds db column q.args row) := by
      rw [Bool.eq_iff_iff,List.all_eq_true,List.all_eq_true]
      exact forall₂_congr fun c member => by rw [holds_append c (closed c member) more row]
    unfold QueryBuilder.selects QueryBuilder.addWhere
    simp [old]

theorem argAt_added (args values : List Arg) (i : Nat) :
    argAt (args ++ values) (args.length + 1 + i) = (values[i]?).map Arg.scalar := by
  unfold argAt
  have shifted : args.length + 1 + i - 1 = args.length + i := by omega
  rw [shifted,List.getElem?_append_right (by omega)]
  simp

def amongst (values : List Arg) (value : Option Scalar) : Bool :=
  decide (values = []) || value.any fun v => values.any fun x => x.scalar = v

theorem whereIn_narrows (closed : q.Closed) (name : String) (values : List Arg) :
    Narrows db column (fun row => amongst values (column row name)) q (q.whereIn name values) := by
  unfold QueryBuilder.whereIn
  split
  · rename_i none'
    subst none'
    exact ⟨rfl,rfl,closed,fun row => by simp [amongst]⟩
  · rename_i some'
    rw [QueryBuilder.addArgs_parts]
    have added : Narrows db column _ q _ := addWhere_narrows closed
      (.isIn name (List.range' (q.args.length + 1) values.length)) values (by
        intro n member
        simp only [Conjunct.placeholders,List.mem_range'_1] at member
        omega)
    refine ⟨rfl,rfl,added.closed,fun row => ?_⟩
    have same : ∀ v, ((List.range' (q.args.length + 1) values.length).any fun n => argAt
        (q.args ++ values) n = some v) = values.any fun x => x.scalar = v := by
      intro v
      rw [Bool.eq_iff_iff]
      simp only [List.any_eq_true,List.mem_range',decide_eq_true_eq]
      constructor
      · rintro ⟨n,⟨i,inside,rfl⟩,found⟩
        rw [Nat.one_mul,argAt_added] at found
        obtain ⟨x,at',value⟩ := Option.map_eq_some_iff.mp found
        exact ⟨x,List.mem_of_getElem? at',value⟩
      · rintro ⟨x,member,value⟩
        obtain ⟨i,at'⟩ := List.mem_iff_getElem?.mp member
        refine ⟨_,⟨i,(List.getElem?_eq_some_iff.mp at').1,rfl⟩,?_⟩
        rw [Nat.one_mul,argAt_added,at',Option.map_some,value]
    rw [added.selects row]
    simp [amongst,some',Conjunct.holds,same]

theorem whereArg_narrows {test : Row → Bool} (closed : q.Closed) (conjunct : Nat → Conjunct)
    (value : Arg) (own : ∀ n, (conjunct n).placeholders = [n])
    (means : ∀ args row, (conjunct (args.length + 1)).holds db column
      (args ++ [value]) row = test row) : Narrows db column test q (q.whereArg conjunct value) := by
  have added : Narrows db column _ q _ :=
    addWhere_narrows closed (conjunct (q.args.length + 1)) [value] (by
    intro n member
    rw [own,List.mem_singleton] at member
    simp [member])
  refine ⟨rfl,rfl,added.closed,fun row => ?_⟩
  rw [← means q.args row]
  exact added.selects row

theorem bound_narrows {test : Row → Bool} (closed : q.Closed) (conjunct : Nat → Conjunct)
    (bound : Stamp) (own : ∀ n, (conjunct n).placeholders = [n])
    (means : ∀ args row, (conjunct (args.length + 1)).holds db column
      (args ++ [.time bound]) row = test row) :
    Narrows db column (fun row => bound.isZero || test row) q
      (if bound.isZero then q else q.whereArg conjunct (.time bound)) := by
  split
  · rename_i zero
    exact ⟨rfl,rfl,closed,fun row => by simp [zero]⟩
  · rename_i bounded
    have added := whereArg_narrows closed conjunct (.time bound) own means
    exact ⟨rfl,rfl,added.closed,fun row => by simp [added.selects row,bounded]⟩

theorem whereBetween_narrows (closed : q.Closed) (name : String) (low high : Stamp) :
    Narrows db column (fun row => (low.isZero || (column row name).any
      fun v => (Scalar.instant low.instant).le v) &&
      (high.isZero || (column row name).any fun v => !(Scalar.instant high.instant).le v)) q
        (q.whereBetween name low high) := by
  have first : Narrows db column (fun row => low.isZero || (column row name).any
    fun v => (Scalar.instant low.instant).le v) q
    (if low.isZero then q else q.whereArg (.atLeast name) (.time low)) :=
    bound_narrows closed (.atLeast name) low (fun _ => rfl) fun args row =>
    by simp [Conjunct.holds,argAt,Arg.scalar]
  apply first.trans
  exact bound_narrows first.closed (.below name) high (fun _ => rfl) fun args row =>
    by simp [Conjunct.holds,argAt,Arg.scalar]

end Meaning

-- A table, the statement its list starts from and its search.
structure Listing (F Row : Type) where
  base : QueryBuilder
  capabilities : Capabilities F
  column : Row → String → Option Scalar

namespace Listing
variable {F Row : Type} (lib : Library) (db : Database) (listing : Listing F Row) (rows : List Row)
  (s : Search F)

def query : Search F × QueryBuilder := applyQuery lib listing.capabilities s listing.base

def matching : List Row := rows.filter ((listing.query lib s).2.selects db listing.column)

def totalPages : Nat :=
  ((listing.query lib s).1.setMeta
    ((listing.query lib s).2.counts db listing.column rows)).pagination.totalPages.toInt.toNat

def request (page : Nat) : Search F :=
  {s with pagination := {s.pagination with page := Int64.ofNat page}}

-- Answers to the requests of all the pages, each arranged as the database likes.
def Answers (pages : Nat → List Row) : Prop :=
  ∀ k < listing.totalPages lib db rows s,
    (listing.query lib (request s (k + 1))).2.Returns db listing.column rows (pages (k + 1))

def walk (pages : Nat → List Row) : List Row :=
  (List.range (listing.totalPages lib db rows s)).flatMap fun k => pages (k + 1)

-- Rows that ORDER BY does not tell apart lie on both sides of the end of a page.
def Straddled : Prop :=
  Straddles ((listing.query lib s).2.precedes listing.column) (listing.matching lib db rows s)
    s.pagination.clamped.limit.toInt.toNat

section Walk
variable {lib db listing rows s}

theorem Scalar.le_total (a b : Scalar) : a.le b || b.le a := by
  cases a <;> cases b <;> simp only [Scalar.le,Bool.true_or,Bool.or_true,Bool.or_eq_true,
    decide_eq_true_eq]
  · exact String.le_total _ _
  · exact Int.le_total _ _

theorem Scalar.le_trans {a b c : Scalar} (one : a.le b) (two : b.le c) : a.le c := by
  cases a <;> cases b <;> cases c <;> simp only [Scalar.le,Bool.false_eq_true,decide_eq_true_eq]
    at one two ⊢
  · exact String.le_trans one two
  · exact Int.le_trans one two

theorem nullsLast_total (x y : Option Scalar) : nullsLast x y || nullsLast y x := by
  cases x <;> cases y <;> simp only [nullsLast,Bool.true_or,Bool.or_true]
  exact Scalar.le_total _ _

theorem nullsLast_trans {x y z : Option Scalar} (one : nullsLast x y)
    (two : nullsLast y z) : nullsLast x z := by
  cases x <;> cases y <;> cases z <;> simp only [nullsLast,Bool.false_eq_true] at one two ⊢
  exact Scalar.le_trans one two

theorem precedes_total (column : Row → String → Option Scalar) (q : QueryBuilder) (a b : Row) :
    q.precedes column a b || q.precedes column b a := by
  unfold QueryBuilder.precedes
  split
  · rfl
  · split <;> exact nullsLast_total _ _

theorem precedes_trans (column : Row → String → Option Scalar) (q : QueryBuilder) (a b c : Row)
    (one : q.precedes column a b) (two : q.precedes column b c) : q.precedes column a c := by
  unfold QueryBuilder.precedes at *
  cases order : q.orderBy with
  | none => rfl
  | some o =>
      simp only [order] at one two ⊢
      split
      · rename_i descending
        rw [if_pos descending] at one two
        exact nullsLast_trans two one
      · rename_i ascending
        rw [if_neg ascending] at one two
        exact nullsLast_trans one two

-- The statement of one page, without its window.
def sorted (lib : Library) (listing : Listing F Row) (s : Search F) : QueryBuilder :=
  (s.sorting.cleaned lib listing.capabilities.sortFields).orders listing.capabilities.sortFields
    (listing.capabilities.applyFilter s.filter listing.base).2

theorem query_parts (blank : listing.capabilities.sortFields.lookup "" = none) :
    (listing.query lib s).2 =
      (sorted lib listing s).paginate s.pagination.clamped.page s.pagination.clamped.limit := by
  unfold query
  rw [applyQuery_parts lib _ blank]
  rfl

theorem limit_bounds (p : Pagination) :
    1 ≤ p.clamped.limit.toInt ∧ p.clamped.limit.toInt ≤ 100 := by
  unfold Pagination.clamped
  dsimp only
  split
  · decide
  · rename_i low
    rw [Int64.lt_iff_toInt_lt,Int64.toInt_one] at low
    split
    · decide
    · rename_i high
      rw [Int64.lt_iff_toInt_lt] at high
      change ¬100 < _ at high
      omega

theorem page_of_request (small : page < 2 ^ 63) (positive : 1 ≤ page) :
    (request s page).pagination.clamped.page.toInt = page := by
  have exact' : (Int64.ofNat page).toInt = page := Int64.toInt_ofNat_of_lt small
  change (if Int64.ofNat page < 1 then 1 else Int64.ofNat page).toInt = page
  rw [if_neg,exact']
  rw [Int64.lt_iff_toInt_lt,exact',Int64.toInt_one]
  omega

theorem paginate_frame (q : QueryBuilder) (page limit : Int64) :
    (q.paginate page limit).wheres = q.wheres ∧ (q.paginate page limit).args = q.args ∧
      (q.paginate page limit).orderBy = q.orderBy := by
  unfold QueryBuilder.paginate
  split
  · exact ⟨rfl,rfl,rfl⟩
  · dsimp only
    split <;> exact ⟨rfl,rfl,rfl⟩

theorem paginate_selects (q : QueryBuilder) (page limit : Int64) :
    (q.paginate page limit).selects db listing.column = q.selects db listing.column := by
  obtain ⟨wheres,args,_⟩ := paginate_frame q page limit
  funext row
  unfold QueryBuilder.selects
  rw [wheres,args]

theorem paginate_precedes (q : QueryBuilder) (page limit : Int64) :
    (q.paginate page limit).precedes listing.column = q.precedes listing.column := by
  obtain ⟨_,_,orderBy⟩ := paginate_frame q page limit
  funext a b
  unfold QueryBuilder.precedes
  rw [orderBy]

-- TotalPages in 64-bit arithmetic, for a count of at most 31 bits.
theorem totalPages_exact {count n : Nat} {size : Int64} (few : count < 2 ^ 31)
    (limit : size.toInt = n) (positive : 0 < n) (small : n ≤ 100) :
    ((Int64.ofNat count + size - 1) / size).toInt.toNat = pages count n := by
  have counted : (Int64.ofNat count).toInt = count := Int64.toInt_ofNat_of_lt (by omega)
  have sum : (Int64.ofNat count + size).toInt = count + n := by
    rw [Int64.toInt_add,counted,limit]
    apply Int.bmod_eq_of_le <;> omega
  have less : (Int64.ofNat count + size - 1).toInt = (count + n - 1 : Nat) := by
    rw [Int64.toInt_sub,sum,Int64.toInt_one]
    have shifted : ((count : Int) + n - 1) = (count + n - 1 : Nat) := by omega
    rw [shifted]
    apply Int.bmod_eq_of_le <;> omega
  have quotient : ((count + n - 1 : Nat) : Int).tdiv n = (pages count n : Nat) := by
    rw [Int.tdiv_eq_ediv_of_nonneg (by omega),← Int.natCast_ediv]
    rfl
  have bound : pages count n ≤ count + n - 1 := Nat.div_le_self _ _
  rw [Int64.toInt_div,less,limit,quotient,Int.bmod_eq_of_le (by omega) (by omega),Int.toNat_natCast]

theorem totalPages_counted (blank : listing.capabilities.sortFields.lookup "" = none)
    (small : rows.length < 2 ^ 31) :
    listing.totalPages lib db rows s =
      pages (listing.matching lib db rows s).length s.pagination.clamped.limit.toInt.toNat := by
  obtain ⟨low,high⟩ := limit_bounds s.pagination
  have few : (listing.matching lib db rows s).length < 2 ^ 31 :=
    (List.length_filter_le _ _).trans_lt small
  have limit : (listing.query lib s).1.pagination = s.pagination.clamped := by
    unfold query
    rw [applyQuery_parts lib _ blank]
  have positive : 0 < s.pagination.clamped.limit := by
    rw [Int64.lt_iff_toInt_lt,Int64.toInt_zero]
    omega
  unfold totalPages Search.setMeta Pagination.pageMeta QueryBuilder.counts
  dsimp only
  rw [limit,if_pos positive]
  exact totalPages_exact few (Int.toNat_of_nonneg (by omega)).symm (by omega) (by omega)

-- The statement of page k + 1 answers with that window of some arrangement of the
-- matching rows.
theorem returns_page (blank : listing.capabilities.sortFields.lookup "" = none)
    (fresh : (sorted lib listing s).offset = 0) (small : rows.length < 2 ^ 31)
    (inside : k < listing.totalPages lib db rows s) :
    (listing.query lib (request s (k + 1))).2.Returns db listing.column rows found ↔
      ∃ arranged, Arranges ((listing.query lib s).2.precedes listing.column · ·)
        (listing.matching lib db rows s) arranged ∧
        found = window arranged s.pagination.clamped.limit.toInt.toNat k := by
  obtain ⟨low,high⟩ := limit_bounds s.pagination
  obtain ⟨size,limit⟩ : ∃ size : Nat, s.pagination.clamped.limit.toInt = size :=
    ⟨_,(Int.toNat_of_nonneg (by omega)).symm⟩
  rw [totalPages_counted blank small,limit,Int.toNat_natCast] at inside
  have few : (listing.matching lib db rows s).length < 2 ^ 31 :=
    (List.length_filter_le _ _).trans_lt small
  have before := pages_before (by omega) inside
  have earlier : k ≤ k * size := Nat.le_mul_of_pos_right k (by omega)
  have built : (listing.query lib (request s (k + 1))).2 =
      (sorted lib listing s).paginate (request s
        (k + 1)).pagination.clamped.page s.pagination.clamped.limit := query_parts blank
  have page : (request s (k + 1)).pagination.clamped.page.toInt = (k + 1 : Nat) :=
    page_of_request (by omega) (by omega)
  have product : ((k + 1 : Nat) - 1 : Int) * size = (k * size : Nat) := by
    have shifted : ((k + 1 : Nat) - 1 : Int) = k := by omega
    rw [shifted,Int.natCast_mul]
  have offset : ((sorted lib listing s).paginate (request s (k + 1)).pagination.clamped.page
      s.pagination.clamped.limit).offset.toInt = (k * size : Nat) := by
    rw [QueryBuilder.paginate_offset (by omega) (by omega) fresh (by rw [page,limit,product]; omega),
      page,limit,product]
    omega
  have shown : ((sorted lib listing s).paginate (request s (k + 1)).pagination.clamped.page
      s.pagination.clamped.limit).limit = s.pagination.clamped.limit := by
    rw [QueryBuilder.paginate_parts (by omega)]
  have positive : 0 < s.pagination.clamped.limit := by
    rw [Int64.lt_iff_toInt_lt,Int64.toInt_zero]
    omega
  unfold QueryBuilder.Returns matching
  rw [built,query_parts blank,paginate_precedes,paginate_precedes,paginate_selects,paginate_selects,
    shown]
  simp only [if_pos positive,offset,limit,Int.toNat_natCast]
  rfl

theorem orders_frame (sorting : Sorting) (allowed : List (String × String)) (q : QueryBuilder) :
    (sorting.orders allowed q).wheres = q.wheres ∧ (sorting.orders allowed q).args = q.args ∧
      (sorting.orders allowed q).offset = q.offset := by
  unfold Sorting.orders QueryBuilder.order
  split
  · exact ⟨rfl,rfl,rfl⟩
  · split <;> exact ⟨rfl,rfl,rfl⟩

-- Which rows a list is about is settled by its filter.
theorem query_selects (blank : listing.capabilities.sortFields.lookup "" = none)
    (narrows : Narrows db listing.column test listing.base
      (listing.capabilities.applyFilter s.filter listing.base).2) (row : Row) :
    (listing.query lib s).2.selects db listing.column row =
      (listing.base.selects db listing.column row && test row) := by
  obtain ⟨wheres,args,_⟩ := orders_frame (s.sorting.cleaned lib listing.capabilities.sortFields)
    listing.capabilities.sortFields (listing.capabilities.applyFilter s.filter listing.base).2
  rw [query_parts blank,paginate_selects,← narrows.selects]
  unfold QueryBuilder.selects sorted
  rw [wheres,args]

theorem sorted_offset (fresh : listing.base.offset = 0)
    (narrows : Narrows db listing.column test listing.base
      (listing.capabilities.applyFilter s.filter listing.base).2) :
    (sorted lib listing s).offset = 0 := by
  unfold sorted
  rw [(orders_frame _ _ _).2.2,narrows.offset,fresh]

theorem walk_cut (pages : Nat → List Row) (arranged : Nat → List Row)
    (cut : ∀ k < listing.totalPages lib db rows s, pages (k + 1) = window (arranged k) size k) :
    listing.walk lib db rows s pages =
      (List.range (listing.totalPages lib db rows s)).flatMap fun k => window (arranged k) size k :=
  List.flatMap_congr fun k member => cut k (List.mem_range.mp member)

-- The pages together are the matching rows, each once, however the database arranges
-- them, exactly when no tie lies across the end of a page.
theorem walk_exact (blank : listing.capabilities.sortFields.lookup "" = none)
    (fresh : (sorted lib listing s).offset = 0) (small : rows.length < 2 ^ 31)
    (once : (listing.matching lib db rows s).Nodup) :
    (∀ pages, listing.Answers lib db rows s pages →
      (listing.walk lib db rows s pages).Perm (listing.matching lib db rows s)) ↔
        ¬listing.Straddled lib db rows s := by
  obtain ⟨low,high⟩ := limit_bounds s.pagination
  have counted : listing.totalPages lib db rows s = pages _ _ := totalPages_counted blank small
  have positive : 0 < s.pagination.clamped.limit.toInt.toNat := by omega
  have exact' := pages_exact positive (precedes_total listing.column (listing.query lib s).2)
    (precedes_trans listing.column (listing.query lib s).2) once
  rw [← counted] at exact'
  refine Iff.trans ?_ exact'
  constructor
  · intro walks arranged each
    have answers : listing.Answers lib db rows s fun page =>
        window (arranged (page - 1)) s.pagination.clamped.limit.toInt.toNat (page - 1) :=
      fun k inside => (returns_page blank fresh small inside).mpr ⟨arranged k,each k inside,rfl⟩
    exact walks _ answers
  · intro walks pages answers
    have each : ∀ k, ∃ arranged, k < listing.totalPages lib db rows s →
        Arranges ((listing.query lib s).2.precedes listing.column · ·)
            (listing.matching lib db rows s) arranged ∧
            pages (k + 1) = window arranged s.pagination.clamped.limit.toInt.toNat k := by
      intro k
      by_cases inside : k < listing.totalPages lib db rows s
      · obtain ⟨arranged,page⟩ := (returns_page blank fresh small inside).mp (answers k inside)
        exact ⟨arranged,fun _ => page⟩
      · exact ⟨[],fun within => absurd within inside⟩
    choose arranged page using each
    rw [walk_cut pages arranged fun k inside => (page k inside).2]
    exact walks arranged fun k inside => (page k inside).1

-- A walk shows matching rows only.
theorem walk_matching (blank : listing.capabilities.sortFields.lookup "" = none)
    (fresh : (sorted lib listing s).offset = 0) (small : rows.length < 2 ^ 31)
    (answers : listing.Answers lib db rows s shown)
    (member : row ∈ listing.walk lib db rows s shown) : row ∈ listing.matching lib db rows s := by
  obtain ⟨k,counted,onPage⟩ := List.mem_flatMap.mp member
  have inside := List.mem_range.mp counted
  obtain ⟨arranged,arranges,cut⟩ := (returns_page blank fresh small inside).mp (answers k inside)
  rw [cut] at onPage
  exact arranges.perm.subset (List.mem_of_mem_drop (List.mem_of_mem_take onPage))

end Walk

end Listing

end RestApi.Query

namespace RestApi.User
open Query

def column (row : UserRow) (name : String) : Option Scalar :=
  if name = "id" then some (.text row.user.id)
  else if name = "name" then some (.text row.user.name)
  else if name = "email" then some (.text row.user.email)
  else if name = "email_verified_at" then row.user.emailVerifiedAt.map .instant
  else if name = "phone" then row.user.phone.map .text
  else if name = "gender" then row.user.gender.map .text
  else if name = "role" then some (.text row.user.role.text)
  else if name = "profile_picture" then row.user.profilePicture.map .text
  else if name = "created_at" then some (.instant row.user.createdAt)
  else if name = "updated_at" then some (.instant row.user.updatedAt)
  else if name = "deleted_at" then row.deletedAt.map .instant
  else none

def listing (lib : Library) : Listing Filter UserRow where
  base := liveUsers
  capabilities := capabilities lib
  column := column

-- What the filter asks for, of the values that survive sanitising.
def Filter.wants (f : Filter) (row : UserRow) : Bool :=
  (f.gender = [] || row.user.gender.any (· ∈ f.gender)) &&
    (f.role = [] || decide (row.user.role.text ∈ f.role))

def Filter.admits (f : Filter) (row : UserRow) : Bool := row.deletedAt.isNone && f.wants row

variable (lib : Library) (db : Database)

theorem amongst_texts (values : List String) (value : Option String) :
    amongst (values.map .text) (value.map .text) = (values = [] || value.any (· ∈ values)) := by
  unfold amongst
  rw [Bool.eq_iff_iff]
  cases value <;> simp [Arg.scalar]

variable {db}

theorem applyFilter_narrows (f : Filter) (closed : q.Closed) :
    Narrows db column (f.sanitised lib).wants q (f.applyFilter lib q).2 := by
  have gender : Narrows db column _ q _ :=
    whereIn_narrows closed "gender" ((f.sanitised lib).gender.map .text)
  have both := gender.trans (whereIn_narrows gender.closed "role"
    ((f.sanitised lib).role.map .text))
  refine ⟨both.offset,both.orderBy,both.closed,fun row => ?_⟩
  have first : amongst ((f.sanitised lib).gender.map .text) (column row "gender") = _ :=
    amongst_texts _ row.user.gender
  have other : amongst ((f.sanitised lib).role.map .text) (column row "role") = _ :=
    amongst_texts _ (some row.user.role.text)
  refine (both.selects row).trans ?_
  rw [first,other]
  rfl

variable {lib}

theorem base_closed : (listing lib).base.Closed := by
  intro c member n held
  rw [List.mem_singleton.mp member] at held
  cases held

-- The WHERE clause selects the rows the filter admits.
theorem list_selects (s : Search Filter) (row : UserRow) :
    (list lib s).2.selects db column row = (s.filter.sanitised lib).admits row := by
  have live : (listing lib).base.selects db column row = row.deletedAt.isNone := by
    change ((row.deletedAt.map Scalar.instant).isNone && true) = _
    simp
  unfold Filter.admits
  rw [← live]
  have narrows : Narrows db (listing lib).column _ (listing lib).base _ :=
    applyFilter_narrows lib s.filter base_closed
  exact Listing.query_selects rfl narrows row

end RestApi.User

namespace RestApi.Audit
open Query

-- A row of the joined tables: users AS u is all NULL where the join finds nobody.
structure Joined where
  entry : AuditEntry
  actor : Option UserRow
  deriving DecidableEq, Repr

def joinUsers (entries : List AuditEntry) (users : List UserRow) : List Joined :=
  entries.flatMap fun e =>
    let partners := users.filter fun u => e.actorID = some u.user.id
    if partners = [] then [⟨e,none⟩] else partners.map fun u => ⟨e,some u⟩

-- The columns a search may filter or sort by.
def column (row : Joined) (name : String) : Option Scalar :=
  if name = "e.entity" then some (.text row.entry.entity)
  else if name = "e.created_at" then some (.instant row.entry.createdAt)
  else if name = "e.actor_id" then row.entry.actorID.map .text
  else if name = "u.name" then row.actor.map fun u => .text u.user.name
  else none

def listing (lib : Library) : Listing Filter Joined where
  base := entriesWithActor
  capabilities := capabilities lib
  column := column

variable (lib : Library) (db : Database)

def ActorTerm.admits : ActorTerm → Joined → Bool
  | .blank,_ => true
  | .uuid id,row => row.entry.actorID = some id
  | .name text,row => row.actor.any fun u => db.ilike u.user.name ("%" ++ escapeLike text ++ "%")

def Filter.admits (f : Filter) (row : Joined) : Bool :=
  let bounds := (f.dateRange.bounds lib).2
  ((f.sanitised lib).entity = [] || decide (row.entry.entity ∈ (f.sanitised lib).entity)) &&
    ((bounds.low.isZero || decide (bounds.low.instant ≤ row.entry.createdAt)) &&
      (bounds.high.isZero || decide (row.entry.createdAt < bounds.high.instant))) &&
    (actorTerm lib (trimSpace f.actor)).admits db row

variable {db}

theorem whereActor_narrows (actor : String) (closed : q.Closed) :
    Narrows db column ((actorTerm lib actor).admits db) q (whereActor lib actor q) := by
  unfold whereActor
  cases actorTerm lib actor with
  | blank => exact ⟨rfl,rfl,closed,fun row => by simp [ActorTerm.admits]⟩
  | uuid id =>
      have added : Narrows db column _ q _ := whereIn_narrows closed "e.actor_id" [.uuid id]
      refine ⟨added.offset,added.orderBy,added.closed,fun row => (added.selects row).trans ?_⟩
      have same : amongst [.uuid id] (column row "e.actor_id") = decide
          (row.entry.actorID = some id) := by
        change (false || (row.entry.actorID.map Scalar.text).any
          fun v => (decide (Scalar.text id = v) || false)) = _
        rw [Bool.eq_iff_iff]
        cases row.entry.actorID <;> simp [eq_comm]
      rw [same]
      rfl
  | name text =>
      apply whereArg_narrows closed (.ilike "u.name") _ fun _ => rfl
      intro args row
      have value : argAt (args ++ [.text ("%" ++ escapeLike text ++ "%")]) (args.length + 1) =
          some (.text ("%" ++ escapeLike text ++ "%")) := by simp [argAt,Arg.scalar]
      change textMatch db.ilike (row.actor.map fun u => .text u.user.name)
        (argAt _ _) = row.actor.any _
      rw [value]
      cases row.actor <;> rfl

theorem applyFilter_narrows (f : Filter) (closed : q.Closed) :
    Narrows db column (f.admits lib db) q (f.applyFilter lib q).2 := by
  have entity : Narrows db column _ q _ :=
    whereIn_narrows closed "e.entity" ((f.sanitised lib).entity.map .text)
  have dated := entity.trans (whereBetween_narrows entity.closed "e.created_at"
    (f.dateRange.bounds lib).2.low (f.dateRange.bounds lib).2.high)
  have all := dated.trans (whereActor_narrows lib (trimSpace f.actor) dated.closed)
  rw [applyFilter_parts]
  refine ⟨all.offset,all.orderBy,all.closed,fun row => (all.selects row).trans ?_⟩
  have first : amongst ((f.sanitised lib).entity.map .text) (column row "e.entity") = _ :=
    User.amongst_texts _ (some row.entry.entity)
  have created : column row "e.created_at" = some (.instant row.entry.createdAt) := rfl
  have high : ∀ bound : Time, (!decide (bound ≤ row.entry.createdAt)) = decide
      (row.entry.createdAt < bound) := by
    intro bound
    rw [← decide_not]
    exact decide_eq_decide.mpr Int.not_le
  rw [first,created]
  simp only [Option.any_some,Scalar.le,high]
  rfl

variable {lib}

theorem base_closed : (listing lib).base.Closed := by
  intro c member
  cases member

theorem list_selects (s : Search Filter) (row : Joined) :
    (list lib s).2.selects db column row = s.filter.admits lib db row := by
  have narrows : Narrows db (listing lib).column _ (listing lib).base _ :=
    applyFilter_narrows lib s.filter base_closed
  exact Listing.query_selects rfl narrows row

-- users.id is a primary key, so the join gives every entry one row.
def attributed (users : List UserRow) (e : AuditEntry) : Joined :=
  ⟨e,users.find? fun u => e.actorID = some u.user.id⟩

theorem attributed_injective : (attributed users).Injective :=
  fun _ _ equal => congrArg Joined.entry equal

-- A list of joined rows is told by its entries.
theorem entries_perm {rows : List Joined} {entries : List AuditEntry}
    (joined : ∀ row ∈ rows, row = attributed users row.entry) :
    (rows.map Joined.entry).Perm entries ↔ rows.Perm (entries.map (attributed users)) := by
  constructor
  · intro shown
    have again : (rows.map Joined.entry).map (attributed users) = rows := by
      rw [List.map_map]
      conv => rhs; rw [← List.map_id rows]
      exact List.map_congr_left fun row member => (joined row member).symm
    exact again ▸ shown.map (attributed users)
  · intro shown
    have mapped := shown.map Joined.entry
    have entry : Joined.entry ∘ attributed users = id := rfl
    rwa [List.map_map,entry,List.map_id] at mapped

theorem filter_keyed {key : α → β} {p : α → Bool} (xs : List α) (keyed : (xs.map key).Nodup)
    (one : ∀ x y, p x → p y → key x = key y) : xs.filter p = (xs.find? p).toList := by
  induction xs with
  | nil => rfl
  | cons x rest ih =>
      obtain ⟨fresh,keyed⟩ := List.nodup_cons.mp keyed
      by_cases hit : p x
      · have others : rest.filter p = [] := by
          rw [List.filter_eq_nil_iff]
          intro y member also
          exact fresh (one x y hit also ▸ List.mem_map_of_mem member)
        simp [hit,others]
      · simp [hit,ih keyed]

theorem joined_once (entries : List AuditEntry) (users : List UserRow)
    (keyed : (users.map fun u => u.user.id).Nodup) :
    joinUsers entries users = entries.map (attributed users) := by
  unfold joinUsers
  rw [List.map_eq_flatMap]
  apply List.flatMap_congr
  intro e _
  have partners : users.filter (fun u => decide (e.actorID = some u.user.id)) = _ :=
    filter_keyed users keyed (by
    intro x y first other
    simp only [decide_eq_true_eq] at first other
    exact Option.some.inj (first.symm.trans other))
  dsimp only
  rw [partners]
  unfold attributed
  cases users.find? fun u => decide (e.actorID = some u.user.id) <;> rfl

end RestApi.Audit

namespace RestApi.Query

-- A walk through the pages of the users table, or of the audit log, gives every row that
-- the filter admits once and nothing else, however ties are arranged: exactly where no
-- tie lies across the end of a page.
theorem pages_walk (lib : Library) (db : Database) (users : List UserRow)
    (keyed : (users.map fun u => u.user.id).Nodup) :
    (∀ s : Search User.Filter, users.length < 2 ^ 31 →
      ((∀ pages, (User.listing lib).Answers lib db users s pages →
        ((User.listing lib).walk lib db users s pages).Perm
          (users.filter (s.filter.sanitised lib).admits)) ↔
        ¬(User.listing lib).Straddled lib db users s)) ∧
    ∀ (entries : List AuditEntry) (s : Search Audit.Filter), entries.length < 2 ^ 31 →
      (entries.map AuditEntry.id).Nodup →
      ((∀ pages, (Audit.listing lib).Answers lib db (Audit.joinUsers entries users) s pages →
        (((Audit.listing lib).walk lib db
          (Audit.joinUsers entries users) s pages).map Audit.Joined.entry).Perm
          (entries.filter fun e => s.filter.admits lib db (Audit.attributed users e))) ↔
        ¬(Audit.listing lib).Straddled lib db (Audit.joinUsers entries users) s) := by
  constructor
  · intro s small
    have narrows : Narrows db (User.listing lib).column _ (User.listing lib).base _ :=
      User.applyFilter_narrows lib s.filter User.base_closed
    have fresh : (Listing.sorted lib (User.listing lib) s).offset = 0 :=
      Listing.sorted_offset rfl narrows
    have admitted : (User.listing lib).matching lib db users s = users.filter
      (s.filter.sanitised lib).admits := List.filter_congr fun row _ => User.list_selects s row
    rw [← admitted]
    exact Listing.walk_exact rfl fresh small ((List.Nodup.of_map _ keyed).filter _)
  · intro entries s small numbered
    rw [Audit.joined_once entries users keyed]
    have narrows : Narrows db (Audit.listing lib).column _ (Audit.listing lib).base _ :=
      Audit.applyFilter_narrows lib s.filter Audit.base_closed
    have fresh : (Listing.sorted lib (Audit.listing lib) s).offset = 0 :=
      Listing.sorted_offset rfl narrows
    have few : (entries.map (Audit.attributed users)).length < 2 ^ 31 := by simpa using small
    have admitted : (Audit.listing lib).matching lib db (entries.map (Audit.attributed users)) s =
        (entries.filter fun e => s.filter.admits lib db (Audit.attributed users e)).map
          (Audit.attributed users) :=
      (List.filter_congr fun row _ => Audit.list_selects s row).trans List.filter_map
    have once : ((Audit.listing lib).matching lib db
        (entries.map (Audit.attributed users)) s).Nodup := by
      rw [admitted]
      exact ((List.Nodup.of_map _ numbered).filter _).map Audit.attributed_injective
    rw [← Listing.walk_exact rfl fresh few once]
    refine forall₂_congr fun pages answers => ?_
    rw [admitted]
    apply Audit.entries_perm
    intro row shown
    have matched := Listing.walk_matching rfl fresh few answers shown
    rw [admitted] at matched
    obtain ⟨e,_,rfl⟩ := List.mem_map.mp matched
    rfl

namespace Controls

def plainSQL : Database := ⟨fun text pattern => text = pattern,fun text pattern => text = pattern⟩

def ann : UserRow := ⟨⟨"1","Ann","a@x",none,"$",some "F",none,.user,none,0,0⟩,none⟩
def bob : UserRow := ⟨⟨"2","Bob","b@x",none,"$",some "M",none,.user,none,0,0⟩,none⟩

def oneByOne (sort : String) : Search User.Filter := ⟨⟨[],[]⟩,⟨sort,""⟩,⟨1,1⟩⟩

def cid : UserRow := ⟨⟨"3","Cid","c@x",none,"$",some "M",none,.user,none,1,1⟩,none⟩
def dan : UserRow := ⟨⟨"4","Dan","d@x",none,"$",some "M",none,.user,none,1,1⟩,none⟩

def twoByTwo : Search User.Filter := ⟨⟨[],[]⟩,⟨"created_at",""⟩,⟨1,2⟩⟩

-- Two users of one instant on the first page and two of another on the second: the ties
-- stay within a page.
theorem pages_walk_paired : (User.listing library).totalPages library plainSQL
    [dan,ann,cid,bob] twoByTwo = 2 ∧
    ∀ pages, (User.listing library).Answers library plainSQL [dan,ann,cid,bob] twoByTwo pages →
      ((User.listing library).walk library plainSQL [dan,ann,cid,bob] twoByTwo pages).Perm
        [dan,ann,cid,bob] := by
  refine ⟨by decide +kernel,((pages_walk library plainSQL [dan,ann,cid,bob] (by decide)).1 twoByTwo
    (by decide)).mpr ?_⟩
  rintro ⟨a,member,k,low,high⟩
  have groups : ∀ a ∈ (User.listing library).matching library plainSQL [dan,ann,cid,bob] twoByTwo,
      (Windows.before (((User.listing library).query library twoByTwo).2.precedes
        (User.listing library).column)
        ((User.listing library).matching library plainSQL [dan,ann,cid,bob] twoByTwo) a,
      Windows.through (((User.listing library).query library twoByTwo).2.precedes
        (User.listing library).column)
        ((User.listing library).matching library plainSQL [dan,ann,cid,bob] twoByTwo) a) ∈ [(0,2),
          (2,4)] := by decide +kernel
  have size : twoByTwo.pagination.clamped.limit.toInt.toNat = 2 := by decide
  rw [size] at low high
  have group := groups a member
  simp only [List.mem_cons,Prod.mk.injEq,List.not_mem_nil,or_false] at group
  omega

-- Both users were created at one instant: the second page may repeat the first.
theorem pages_repeat :
    (User.listing library).Answers library plainSQL [ann,bob] (oneByOne "created_at")
      (fun _ => [ann]) ∧
      (User.listing library).walk library plainSQL [ann,bob] (oneByOne "created_at")
        (fun _ => [ann]) = [ann,ann] ∧
      [ann,bob].filter ((oneByOne "created_at").filter.sanitised library).admits = [ann,bob] := by
  have two : (User.listing library).totalPages library plainSQL [ann,bob] (oneByOne "created_at") =
    2 := by decide +kernel
  refine ⟨?_,?_,by decide +kernel⟩
  · intro k inside
    rw [two] at inside
    rcases Nat.lt_succ_iff_lt_or_eq.mp inside with first | rfl
    · obtain rfl : k = 0 := by omega
      exact ⟨[ann,bob],⟨by decide +kernel,by decide +kernel⟩,by decide +kernel⟩
    · exact ⟨[bob,ann],⟨by decide +kernel,by decide +kernel⟩,by decide +kernel⟩
  · unfold Listing.walk
    rw [two]
    rfl

end Controls

end RestApi.Query
