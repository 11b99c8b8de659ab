import Mathlib.Algebra.Group.Int.Defs
import Mathlib.Algebra.Group.Nat.Defs
import RestApi.Domain

namespace RestApi.Query

-- A time.Time: the instant, and the offset it is shown with.
structure Stamp where
  instant : Time
  offset : Duration
  deriving DecidableEq, Repr

-- The zero time.Time is midnight of 1 January of the year 1, UTC.
def Stamp.zero : Stamp := ⟨-62135596800 * second,0⟩
def Stamp.isZero (t : Stamp) : Bool := t.instant = Stamp.zero.instant
def Stamp.add (t : Stamp) (d : Duration) : Stamp := {t with instant := t.instant + d}

inductive Arg where
  | text (value : String)
  | uuid (value : UUID)
  | time (value : Stamp)
  -- A value of any other type, told apart by type and text.
  | other (type shown : String)
  deriving DecidableEq, Repr

-- One conjunct of the WHERE clause. The source keeps its text only; the builder
-- here keeps the conjunct and renders it, so that it also has a meaning. A
-- placeholder is a position in the argument list, counted from 1.
inductive Conjunct where
  | isIn (column : String) (placeholders : List Nat)
  | isNull (column : String)
  | isNotNull (column : String)
  | like (column : String) (placeholder : Nat)
  | ilike (column : String) (placeholder : Nat)
  | atLeast (column : String) (placeholder : Nat)
  | below (column : String) (placeholder : Nat)
  deriving DecidableEq, Repr

def placeholder (n : Nat) : String := "$" ++ toString n

def Conjunct.text : Conjunct → String
  | .isIn column placeholders =>
      column ++ " IN (" ++ ", ".intercalate (placeholders.map placeholder) ++ ")"
  | .isNull column => column ++ " IS NULL"
  | .isNotNull column => column ++ " IS NOT NULL"
  | .like column n => column ++ " LIKE " ++ placeholder n
  | .ilike column n => column ++ " ILIKE " ++ placeholder n
  | .atLeast column n => column ++ " >= " ++ placeholder n
  | .below column n => column ++ " < " ++ placeholder n

def Conjunct.placeholders : Conjunct → List Nat
  | .isIn _ ns => ns
  | .isNull _ => []
  | .isNotNull _ => []
  | .like _ n => [n]
  | .ilike _ n => [n]
  | .atLeast _ n => [n]
  | .below _ n => [n]

-- The text after ORDER BY: a column and, unless empty, a direction.
structure Order where
  column : String
  order : String
  deriving DecidableEq, Repr

def Order.text (o : Order) : String := if o.order = "" then o.column else o.column ++ " " ++ o.order

-- Go's int is 64 bits wide here, and its arithmetic wraps.
structure QueryBuilder where
  table : String
  columns : List String
  joins : List String := []
  wheres : List Conjunct := []
  args : List Arg := []
  orderBy : Option Order := none
  limit : Int64 := 0
  offset : Int64 := 0
  deriving DecidableEq, Repr

def select (table : String) (columns : List String) : QueryBuilder := {table,columns}

namespace QueryBuilder
variable (q : QueryBuilder)

def joined (kind table on : String) : QueryBuilder :=
  {q with joins := q.joins ++ [kind ++ table ++ " ON " ++ on]}
def join (table on : String) : QueryBuilder := q.joined "JOIN " table on
def leftJoin (table on : String) : QueryBuilder := q.joined "LEFT JOIN " table on
def rightJoin (table on : String) : QueryBuilder := q.joined "RIGHT JOIN " table on

def addArg (value : Arg) : Nat × QueryBuilder :=
  (q.args.length + 1,{q with args := q.args ++ [value]})

def addArgs : List Arg → QueryBuilder → List Nat × QueryBuilder
  | [],q => ([],q)
  | value :: rest,q =>
    let (n,q) := q.addArg value
    let (ns,q) := addArgs rest q
    (n :: ns,q)

def addWhere (conjunct : Conjunct) : QueryBuilder := {q with wheres := q.wheres ++ [conjunct]}

def whereIn (column : String) (values : List Arg) : QueryBuilder :=
  if values = [] then q
  else
    let (placeholders,q) := addArgs values q
    q.addWhere (.isIn column placeholders)

def whereNull (column : String) : QueryBuilder := q.addWhere (.isNull column)
def whereNotNull (column : String) : QueryBuilder := q.addWhere (.isNotNull column)

def whereArg (conjunct : Nat → Conjunct) (value : Arg) : QueryBuilder :=
  let (n,q) := q.addArg value
  q.addWhere (conjunct n)

def whereLike (column : String) (value : Arg) : QueryBuilder := q.whereArg (.like column) value
def whereILike (column : String) (value : Arg) : QueryBuilder := q.whereArg (.ilike column) value

-- Half-open; a zero bound leaves its side open.
def whereBetween (column : String) (low high : Stamp) : QueryBuilder :=
  let q := if low.isZero then q else q.whereArg (.atLeast column) (.time low)
  if high.isZero then q else q.whereArg (.below column) (.time high)

def order (column order : String) : QueryBuilder :=
  if column = "" then q else {q with orderBy := some ⟨column,order⟩}

def maxInt32 : Int64 := 2147483647

-- The guard looks at the product after it has wrapped.
def paginate (page limit : Int64) : QueryBuilder :=
  if limit ≤ 0 then q
  else
    let q := {q with limit}
    if 1 < page then
      let offset := (page - 1) * limit
      let offset := if offset < 0 ∨ maxInt32 < offset then maxInt32 else offset
      {q with offset}
    else q

def fromWhere : String :=
  q.table ++ (if q.joins = [] then "" else " " ++ " ".intercalate q.joins) ++
    (if q.wheres = [] then "" else " WHERE " ++ " AND ".intercalate (q.wheres.map Conjunct.text))

def ordering : String :=
  match q.orderBy with
  | none => ""
  | some o => " ORDER BY " ++ o.text

def window : String :=
  if 0 < q.limit then
    " LIMIT " ++ toString q.limit.toInt ++ " OFFSET " ++ toString q.offset.toInt
  else ""

def sql : String × List Arg :=
  ("SELECT " ++ ", ".intercalate q.columns ++ " FROM " ++ q.fromWhere ++ q.ordering ++ q.window,
    q.args)

def countSQL : String × List Arg := ("SELECT COUNT(*) FROM " ++ q.fromWhere,q.args)

theorem addArgs_parts (values : List Arg) (q : QueryBuilder) :
    addArgs values q =
      (List.range' (q.args.length + 1) values.length,{q with args := q.args ++ values}) := by
  induction values generalizing q with
  | nil => simp [addArgs]
  | cons value rest ih =>
      unfold addArgs
      simp [addArg,ih,List.range'_succ]

section Offset
variable {q} {page limit : Int64}

theorem toString_nonneg {a b : Int} (first : 0 ≤ a) (second : 0 ≤ b)
    (same : toString a = toString b) : a = b := by
  rw [Int.toString_eq_repr,Int.toString_eq_repr,Int.repr_eq_if,if_pos first,Int.repr_eq_if,
    if_pos second] at same
  have digits : Nat.toDigits 10 a.toNat = Nat.toDigits 10 b.toNat := by
    rw [← Nat.toList_repr,← Nat.toList_repr,same]
  have value := congrArg (Nat.ofDigitChars 10 · 0) digits
  simp only [Nat.ofDigitChars_toDigits (b := 10) (by decide) (by decide)] at value
  omega

-- The product as the multiplication of 64 bits leaves it.
theorem product_wraps (atLeast : 1 ≤ page.toInt) :
    ((page - 1) * limit).toInt = ((page.toInt - 1) * limit.toInt).bmod (2 ^ 64) := by
  have bound := page.toInt_lt
  have shifted : (page - 1).toInt = page.toInt - 1 := by
    rw [Int64.toInt_sub,Int64.toInt_one]
    apply Int.bmod_eq_of_le <;> omega
  rw [Int64.toInt_mul,shifted]

theorem paginate_parts (positive : 0 < limit.toInt) :
    q.paginate page limit = {q with
      limit
      offset := if 1 < page then
          (if (page - 1) * limit < 0 ∨ maxInt32 < (page - 1) * limit then maxInt32
            else (page - 1) * limit)
        else q.offset} := by
  have unclamped : ¬limit ≤ 0 := by
    rw [Int64.le_iff_toInt_le,Int64.toInt_zero]
    omega
  unfold paginate
  rw [if_neg unclamped]
  split <;> rfl

-- The guard looks at the wrapped product, and so does the first page: it wraps to zero.
theorem paginate_wraps (atLeast : 1 ≤ page.toInt) (positive : 0 < limit.toInt)
    (unset : q.offset = 0) :
    (q.paginate page limit).offset.toInt =
      if ((page.toInt - 1) * limit.toInt).bmod (2 ^ 64) < 0 ∨
        2147483647 < ((page.toInt - 1) * limit.toInt).bmod (2 ^ 64)
      then 2147483647 else ((page.toInt - 1) * limit.toInt).bmod (2 ^ 64) := by
  have product : ((page - 1) * limit).toInt = _ := product_wraps atLeast
  have top : maxInt32.toInt = 2147483647 := rfl
  rw [paginate_parts positive]
  simp only [Int64.lt_iff_toInt_lt,Int64.toInt_one,Int64.toInt_zero,product,top]
  by_cases later : 1 < page.toInt
  · rw [if_pos later]
    split
    · exact top
    · exact product
  · have one : page.toInt = 1 := by omega
    rw [if_neg later,unset,one,Int.sub_self,Int.zero_mul]
    rfl

theorem paginate_offset (atLeast : 1 ≤ page.toInt) (positive : 0 < limit.toInt)
    (unset : q.offset = 0) (fits : (page.toInt - 1) * limit.toInt < 2 ^ 63) :
    (q.paginate page limit).offset.toInt = min ((page.toInt - 1) * limit.toInt) 2147483647 := by
  have low : 0 ≤ (page.toInt - 1) * limit.toInt := Int.mul_nonneg (by omega) (by omega)
  have product : ((page.toInt - 1) * limit.toInt).bmod
      (2 ^ 64) = (page.toInt - 1) * limit.toInt := by
    apply Int.bmod_eq_of_le <;> omega
  rw [paginate_wraps atLeast positive unset,product]
  split
  · omega
  · omega

-- Where the product is too large, the guard catches it unless it wraps to a small one.
theorem offset_exact (atLeast : 1 ≤ page.toInt) (positive : 0 < limit.toInt)
    (unset : q.offset = 0) :
    (q.paginate page limit).offset.toInt = min ((page.toInt - 1) * limit.toInt) 2147483647 ↔
      (page.toInt - 1) * limit.toInt ≤ 2147483647 ∨
        2147483647 ≤ (page.toInt - 1) * limit.toInt % 2 ^ 64 := by
  have low : 0 ≤ (page.toInt - 1) * limit.toInt := Int.mul_nonneg (by omega) (by omega)
  rw [paginate_wraps atLeast positive unset,Int.bmod_def]
  generalize (page.toInt - 1) * limit.toInt = product at low ⊢
  have residue := Int.emod_nonneg product (show (2 ^ 64 : Int) ≠ 0 by decide)
  have below := Int.emod_lt_of_pos product (show (0 : Int) < 2 ^ 64 by decide)
  split
  · split
    · omega
    · omega
  · split
    · omega
    · omega

-- Beyond 64 bits the product wraps before it is compared, and may wrap to any
-- residue, also one the guard lets through.
theorem offset_saturates (table : String) (columns : List String) (atLeast : 1 ≤ page)
    (positive : 1 ≤ limit) :
    ((select table columns).paginate page limit).sql.1 =
      "SELECT " ++ ", ".intercalate columns ++ " FROM " ++ table ++
        " LIMIT " ++ toString limit.toInt ++ " OFFSET " ++
          toString (min ((page.toInt - 1) * limit.toInt) 2147483647) ↔
      (page.toInt - 1) * limit.toInt ≤ 2147483647 ∨
        2147483647 ≤ (page.toInt - 1) * limit.toInt % 2 ^ 64 := by
  rw [Int64.le_iff_toInt_le,Int64.toInt_one] at atLeast positive
  have low : 0 ≤ (page.toInt - 1) * limit.toInt := Int.mul_nonneg (by omega) (by omega)
  have wrapped := paginate_wraps (q := select table columns) atLeast positive rfl
  have shown : 0 < limit := by
    rw [Int64.lt_iff_toInt_lt,Int64.toInt_zero]
    omega
  have text : ((select table columns).paginate page limit).sql.1 =
      "SELECT " ++ ", ".intercalate columns ++ " FROM " ++ table ++
        " LIMIT " ++ toString limit.toInt ++ " OFFSET " ++
            toString ((select table columns).paginate page limit).offset.toInt := by
    unfold sql window
    rw [paginate_parts positive]
    simp [select,fromWhere,ordering,shown,String.append_assoc]
  rw [text,String.append_right_inj,← offset_exact (q := select table columns) atLeast positive rfl]
  constructor
  · apply toString_nonneg
    · rw [wrapped]
      split
      · decide
      · omega
    · omega
  · intro same
    rw [same]

namespace Controls

theorem offset_saturates_wrapped : ((select "users" ["id"]).paginate 92233720368547760 100).sql.1 =
    "SELECT id FROM users LIMIT 100 OFFSET 2147483647" :=
  (@offset_saturates 92233720368547760 100 "users" ["id"] (by decide) (by decide)).mpr (by decide)

theorem offset_wraps : ((select "users" ["id"]).paginate 4611686018427387905 4).sql.1 =
    "SELECT id FROM users LIMIT 4 OFFSET 0" ∧
    min (((4611686018427387905 : Int64).toInt - 1) * (4 : Int64).toInt) 2147483647 =
      2147483647 := by
  constructor
  · decide
  · decide

end Controls
end Offset

end QueryBuilder

end RestApi.Query
