import RestApi.NumberedText
import RestApi.QueryBuilder

namespace RestApi.Query
open NumberedText

-- What the builder sees of an argument of type any: whether it is nil, and the
-- elements of a slice or an array.
inductive Value where
  | nil
  | single (value : Arg)
  | slice (value : Arg) (elements : List Arg)
  deriving DecidableEq, Repr

def Value.arg? : Value → Option Arg
  | .nil => none
  | .single value => some value
  | .slice value _ => some value

def Value.elements : Value → List Arg
  | .slice _ elements => elements
  | _ => []

inductive Call where
  | join (table on : String)
  | leftJoin (table on : String)
  | rightJoin (table on : String)
  | whereIn (column : String) (value : Value)
  | whereNull (column : String)
  | whereNotNull (column : String)
  | whereLike (column : String) (value : Value)
  | whereILike (column : String) (value : Value)
  | whereBetween (column : String) (low high : Stamp)
  | orderBy (column order : String)
  | paginate (page limit : Int64)
  deriving DecidableEq, Repr

namespace Call

-- Skipping is decided here for what is not a slice, and for nil.
def apply (q : QueryBuilder) : Call → QueryBuilder
  | .join table on => q.join table on
  | .leftJoin table on => q.leftJoin table on
  | .rightJoin table on => q.rightJoin table on
  | .whereIn column value => q.whereIn column value.elements
  | .whereNull column => q.whereNull column
  | .whereNotNull column => q.whereNotNull column
  | .whereLike column value => match value.arg? with
      | some arg => q.whereLike column arg
      | none => q
  | .whereILike column value => match value.arg? with
      | some arg => q.whereILike column arg
      | none => q
  | .whereBetween column low high => q.whereBetween column low high
  | .orderBy column order => q.order column order
  | .paginate page limit => q.paginate page limit

-- The values a call has the statement compare with, in the order of its text.
def values : Call → List Arg
  | .whereIn _ value => value.elements
  | .whereLike _ value => value.arg?.toList
  | .whereILike _ value => value.arg?.toList
  | .whereBetween _ low high =>
      (if low.isZero then [] else [.time low]) ++ if high.isZero then [] else [.time high]
  | _ => []

-- Its conditions, when `n` values have been passed before.
def conditions (n : Nat) : Call → List Conjunct
  | .whereIn column value =>
      if value.elements = [] then [] else [.isIn column (List.range' (n+1) value.elements.length)]
  | .whereNull column => [.isNull column]
  | .whereNotNull column => [.isNotNull column]
  | .whereLike column value => if value = .nil then [] else [.like column (n+1)]
  | .whereILike column value => if value = .nil then [] else [.ilike column (n+1)]
  | .whereBetween column low high => (if low.isZero then [] else [.atLeast column (n+1)]) ++
      if high.isZero then [] else [.below column (if low.isZero then n+1 else n+2)]
  | _ => []

def joins : Call → List String
  | .join table on => ["JOIN " ++ table ++ " ON " ++ on]
  | .leftJoin table on => ["LEFT JOIN " ++ table ++ " ON " ++ on]
  | .rightJoin table on => ["RIGHT JOIN " ++ table ++ " ON " ++ on]
  | _ => []

-- The text a call is given, apart from values and the direction of a sort.
def names : Call → List String
  | .join table on => [table,on]
  | .leftJoin table on => [table,on]
  | .rightJoin table on => [table,on]
  | .whereIn column _ => [column]
  | .whereNull column => [column]
  | .whereNotNull column => [column]
  | .whereLike column _ => [column]
  | .whereILike column _ => [column]
  | .whereBetween column _ _ => [column]
  | .orderBy column _ => [column]
  | .paginate _ _ => []

def direction : Call → Option String
  | .orderBy _ order => some order
  | _ => none

end Call

namespace QueryBuilder

def build (q : QueryBuilder) (calls : List Call) : QueryBuilder := calls.foldl Call.apply q

-- What a statement has gained.
structure Gains (q r : QueryBuilder) (conditions : List Conjunct) (values : List Arg)
    (joins : List String) : Prop where
  table : r.table = q.table
  columns : r.columns = q.columns
  joins : r.joins = q.joins ++ joins
  wheres : r.wheres = q.wheres ++ conditions
  args : r.args = q.args ++ values

theorem whereArg_gains (q : QueryBuilder) (conjunct : Nat → Conjunct) (value : Arg) :
    Gains q (q.whereArg conjunct value) [conjunct (q.args.length+1)] [value] [] :=
  ⟨rfl,rfl,(List.append_nil _).symm,rfl,rfl⟩

theorem Gains.refl (q : QueryBuilder) : Gains q q [] [] [] :=
  ⟨rfl,rfl,(List.append_nil _).symm,(List.append_nil _).symm,(List.append_nil _).symm⟩

theorem Gains.trans {q r s : QueryBuilder} (one : Gains q r conditions values linked)
    (two : Gains r s conditions' values' linked') :
    Gains q s (conditions ++ conditions') (values ++ values') (linked ++ linked') where
  table := two.table.trans one.table
  columns := two.columns.trans one.columns
  joins := by rw [two.joins,one.joins,List.append_assoc]
  wheres := by rw [two.wheres,one.wheres,List.append_assoc]
  args := by rw [two.args,one.args,List.append_assoc]

theorem whereIn_gains (q : QueryBuilder) (column : String) (values : List Arg) :
    Gains q (q.whereIn column values)
    (if values = [] then [] else [.isIn column
      (List.range' (q.args.length+1) values.length)]) values [] := by
  unfold whereIn
  split
  · rename_i none'
    subst none'
    exact .refl q
  · rw [addArgs_parts]
    exact ⟨rfl,rfl,(List.append_nil _).symm,rfl,rfl⟩

-- A zero bound adds nothing.
theorem bound_gains (q : QueryBuilder) (conjunct : Nat → Conjunct) (bound : Stamp) :
    Gains q (if bound.isZero then q else q.whereArg conjunct (.time bound))
      (if bound.isZero then [] else [conjunct (q.args.length+1)])
        (if bound.isZero then [] else [.time bound]) [] := by
  split
  · exact .refl q
  · exact whereArg_gains q conjunct _

theorem whereBetween_gains (q : QueryBuilder) (column : String) (low high : Stamp) :
    Gains q (q.whereBetween column low high)
    ((Call.whereBetween column low high).conditions q.args.length)
      (Call.whereBetween column low high).values [] := by
  have first := bound_gains q (.atLeast column) low
  have second := bound_gains (if low.isZero then q else q.whereArg (.atLeast column) (.time low))
    (.below column) high
  have length : (if low.isZero then q else q.whereArg (.atLeast column) (.time low)).args.length+1 =
      if low.isZero then q.args.length+1 else q.args.length+2 := by
    rw [first.args]
    split <;> simp
  rw [length] at second
  exact first.trans second

theorem paginate_gains (q : QueryBuilder) (page limit : Int64) :
    Gains q (q.paginate page limit) [] [] [] := by
  unfold paginate
  split
  · exact .refl q
  · dsimp only
    split
    · exact ⟨rfl,rfl,(List.append_nil _).symm,(List.append_nil _).symm,(List.append_nil _).symm⟩
    · exact ⟨rfl,rfl,(List.append_nil _).symm,(List.append_nil _).symm,(List.append_nil _).symm⟩

-- One call, whichever it is.
theorem apply_gains (q : QueryBuilder) (call : Call) :
    Gains q (call.apply q) (call.conditions q.args.length) call.values call.joins := by
  have unchanged := Gains.refl q
  cases call with
  | join table on => exact {unchanged with joins := rfl}
  | leftJoin table on => exact {unchanged with joins := rfl}
  | rightJoin table on => exact {unchanged with joins := rfl}
  | whereIn column value => exact whereIn_gains q column value.elements
  | whereNull column => exact {unchanged with wheres := rfl}
  | whereNotNull column => exact {unchanged with wheres := rfl}
  | whereLike column value =>
      cases value with
      | nil => exact unchanged
      | single arg => exact whereArg_gains q _ arg
      | slice arg elements => exact whereArg_gains q _ arg
  | whereILike column value =>
      cases value with
      | nil => exact unchanged
      | single arg => exact whereArg_gains q _ arg
      | slice arg elements => exact whereArg_gains q _ arg
  | whereBetween column low high => exact whereBetween_gains q column low high
  | orderBy column order =>
      change Gains q (q.order column order) [] [] []
      unfold QueryBuilder.order
      split
      · exact unchanged
      · exact ⟨rfl,rfl,unchanged.joins,unchanged.wheres,unchanged.args⟩
  | paginate page limit => exact paginate_gains q page limit

end QueryBuilder

-- The conditions of a sequence of calls, each numbered on from the one before.
def conditions : Nat → List Call → List Conjunct
  | _,[] => []
  | n,call :: rest => call.conditions n ++ conditions (n+call.values.length) rest

namespace QueryBuilder

theorem build_gains (q : QueryBuilder) (calls : List Call) :
    Gains q (q.build calls) (conditions q.args.length calls) (calls.flatMap Call.values)
      (calls.flatMap Call.joins) := by
  induction calls generalizing q with
  | nil => exact .refl q
  | cons call rest ih =>
      have first := apply_gains q call
      have later := ih (call.apply q)
      rw [first.args,List.length_append] at later
      exact first.trans later

-- From Select, everything the calls have left behind.
theorem built (table : String) (columns : List String) (calls : List Call) :
    Gains {table,columns} ((select table columns).build calls) (conditions 0 calls)
      (calls.flatMap Call.values) (calls.flatMap Call.joins) :=
  build_gains _ calls

end QueryBuilder

section Texts
variable {calls : List Call} {q : QueryBuilder}

def Plain (text : String) : Prop := '$' ∉ text.toList
instance (text : String) : Decidable (Plain text) := inferInstanceAs (Decidable (_ ∉ _))

-- The placeholders of a statement, left to right.
def placeholdersIn (text : String) : List String := (numbers '$' text.toList).map String.ofList

theorem conditions_numbered (call : Call) (n : Nat) :
    (call.conditions n).flatMap Conjunct.placeholders = List.range' (n+1) call.values.length := by
  cases call with
  | whereIn column value =>
      simp only [Call.conditions,Call.values]
      split
      · rename_i none'
        simp [none']
      · simp [Conjunct.placeholders]
  | whereLike column value => cases value <;> rfl
  | whereILike column value => cases value <;> rfl
  | whereBetween column low high =>
      simp only [Call.conditions,Call.values]
      cases low.isZero <;> cases high.isZero <;> rfl
  | _ => rfl

theorem all_numbered (calls : List Call) (n : Nat) :
    (conditions n calls).flatMap Conjunct.placeholders = List.range' (n+1)
      (calls.flatMap Call.values).length := by
  induction calls generalizing n with
  | nil => rfl
  | cons call rest ih =>
      have next : n+call.values.length+1 = n+1+call.values.length := by omega
      rw [conditions,List.flatMap_append,conditions_numbered,ih,List.flatMap_cons,List.length_append,
        next,List.range'_append_1]

theorem placeholder_text (n : Nat) : (placeholder n).toList = '$' :: Nat.toDigits 10 n := by
  rw [placeholder,String.toList_append]
  exact congrArg (List.cons '$') Nat.toList_repr

-- A placeholder at the end of a text without any.
theorem numbers_compare {before : String} (plain : Plain before) (n : Nat) :
    numbers '$' (before ++ placeholder n).toList = [Nat.toDigits 10 n] := by
  rw [String.toList_append,numbers_unmarked plain,placeholder_text,numbers_mark (by decide)]

theorem Plain.append {a b : String} (one : Plain a) (two : Plain b) : Plain (a ++ b) := by
  unfold Plain
  rw [String.toList_append,List.mem_append,not_or]
  exact ⟨one,two⟩

def Conjunct.column : Conjunct → String
  | .isIn column _ => column
  | .isNull column => column
  | .isNotNull column => column
  | .like column _ => column
  | .ilike column _ => column
  | .atLeast column _ => column
  | .below column _ => column

theorem conjunct_numbers (c : Conjunct) (plain : Plain c.column) :
    numbers '$' c.text.toList = c.placeholders.map (Nat.toDigits 10) := by
  cases c with
  | isIn column ns =>
      have before : Plain (column ++ " IN (") := plain.append (by decide)
      have listed : numbers '$' (", ".intercalate (ns.map placeholder)).toList = ns.map
          (Nat.toDigits 10) := by
        have comma : Plain ", " := by decide
        have breaks : Breaks ", ".toList := by decide
        rw [String.toList_intercalate,numbers_intercalate comma breaks (by decide),List.map_map,
          List.flatMap_map]
        simp only [Function.comp_apply,placeholder_text]
        rw [List.map_eq_flatMap]
        exact congrArg (ns.flatMap ·) (funext fun n => numbers_mark (by decide) n)
      have closing : Breaks ")".toList := by decide
      rw [Conjunct.text,String.toList_append,numbers_append closing,String.toList_append,
        numbers_unmarked before,listed]
      exact List.append_nil _
  | isNull column => exact numbers_none (plain.append (by decide))
  | isNotNull column => exact numbers_none (plain.append (by decide))
  | like column n => exact numbers_compare (plain.append (by decide)) n
  | ilike column n => exact numbers_compare (plain.append (by decide)) n
  | atLeast column n => exact numbers_compare (plain.append (by decide)) n
  | below column n => exact numbers_compare (plain.append (by decide)) n

theorem Plain.intercalate {sep : String} {pieces : List String} (plain : Plain sep)
    (each : ∀ piece ∈ pieces, Plain piece) : Plain (sep.intercalate pieces) := by
  induction pieces with
  | nil => simp [Plain]
  | cons piece rest ih =>
      have first := each piece List.mem_cons_self
      have later := ih fun other member => each other (List.mem_cons_of_mem _ member)
      cases rest with
      | nil => simpa using first
      | cons next rest =>
          rw [String.intercalate_cons_of_ne_nil (List.cons_ne_nil _ _)]
          exact (first.append plain).append later

theorem nat_plain (n : Nat) : Plain n.repr := by
  unfold Plain
  rw [Nat.toList_repr]
  exact digits_unmarked (by decide) n

theorem int_plain (n : Int) : Plain (toString n) := by
  change Plain n.repr
  rw [Int.repr_eq_if]
  split
  · exact nat_plain _
  · exact Plain.append (by decide) (nat_plain _)

theorem window_plain (q : QueryBuilder) : Plain q.window := by
  unfold QueryBuilder.window
  split
  · exact (((show Plain " LIMIT " by decide).append (int_plain _)).append (by decide)).append
      (int_plain _)
  · decide

theorem window_breaks (q : QueryBuilder) : Breaks q.window.toList := by
  unfold QueryBuilder.window
  split
  · simp only [String.toList_append,List.append_assoc]
    exact breaks_append (by decide) (by decide) _
  · decide

-- The sort comes from the last OrderBy that names a column.
theorem apply_orderBy (q : QueryBuilder) (call : Call) :
    (call.apply q).orderBy = q.orderBy ∨
    ∃ column order, call = .orderBy column order ∧
      (call.apply q).orderBy = some ⟨column,order⟩ := by
  cases call with
  | whereIn column value =>
      simp only [Call.apply,QueryBuilder.whereIn]
      split
      · exact .inl rfl
      · rw [QueryBuilder.addArgs_parts]
        exact .inl rfl
  | whereLike column value => cases value <;> exact .inl rfl
  | whereILike column value => cases value <;> exact .inl rfl
  | whereBetween column low high =>
      simp only [Call.apply,QueryBuilder.whereBetween]
      cases low.isZero <;> cases high.isZero <;> exact .inl rfl
  | orderBy column order =>
      simp only [Call.apply,QueryBuilder.order]
      split
      · exact .inl rfl
      · exact .inr ⟨column,order,rfl,rfl⟩
  | paginate page limit =>
      simp only [Call.apply,QueryBuilder.paginate]
      split
      · exact .inl rfl
      · split <;> exact .inl rfl
  | _ => exact .inl rfl

theorem build_orderBy (ordered : ∀ call ∈ calls, ∀ order ∈ call.direction, Plain order)
    (named : ∀ call ∈ calls, ∀ name ∈ call.names, Plain name)
    (start : ∀ o ∈ q.orderBy, Plain o.text) : ∀ o ∈ (q.build calls).orderBy, Plain o.text := by
  induction calls generalizing q with
  | nil => exact start
  | cons call rest ih =>
      refine ih (fun other member => ordered other (List.mem_cons_of_mem _ member))
        (fun other member => named other (List.mem_cons_of_mem _ member)) ?_
      rcases apply_orderBy q call with same | ⟨column,order,rfl,set⟩
      · rwa [same]
      · rw [set]
        rintro o ⟨⟩
        have plain := named _ List.mem_cons_self column List.mem_cons_self
        unfold Order.text
        split
        · exact plain
        · exact (plain.append (by decide)).append (ordered _ List.mem_cons_self order rfl)

theorem ordering_plain (plain : ∀ o ∈ q.orderBy, Plain o.text) : Plain q.ordering := by
  unfold QueryBuilder.ordering
  cases set : q.orderBy with
  | none => decide
  | some o => exact Plain.append (by decide) (plain o set)

theorem ordering_breaks (q : QueryBuilder) : Breaks (q.ordering ++ q.window).toList := by
  unfold QueryBuilder.ordering
  cases q.orderBy with
  | none =>
      rw [String.empty_append]
      exact window_breaks q
  | some o =>
      simp only [String.toList_append,List.append_assoc]
      exact breaks_append (by decide) (by decide) _

theorem conditions_plain (n : Nat) (named : ∀ call ∈ calls, ∀ name ∈ call.names, Plain name) :
    ∀ c ∈ conditions n calls, Plain c.column := by
  induction calls generalizing n with
  | nil => exact nofun
  | cons call rest ih =>
      have plain := named call List.mem_cons_self
      intro c member
      rcases List.mem_append.mp member with own | later
      · cases call with
        | whereIn column value =>
            simp only [Call.conditions,List.mem_ite_nil_left,List.mem_singleton] at own
            exact own.2 ▸ plain column List.mem_cons_self
        | whereNull column => exact List.mem_singleton.mp own ▸ plain column List.mem_cons_self
        | whereNotNull column => exact List.mem_singleton.mp own ▸ plain column List.mem_cons_self
        | whereLike column value =>
            simp only [Call.conditions,List.mem_ite_nil_left,List.mem_singleton] at own
            exact own.2 ▸ plain column List.mem_cons_self
        | whereILike column value =>
            simp only [Call.conditions,List.mem_ite_nil_left,List.mem_singleton] at own
            exact own.2 ▸ plain column List.mem_cons_self
        | whereBetween column low high =>
            simp only [Call.conditions,List.mem_append,List.mem_ite_nil_left,List.mem_singleton]
              at own
            rcases own with ⟨_,rfl⟩ | ⟨_,rfl⟩
            · exact plain column List.mem_cons_self
            · exact plain column List.mem_cons_self
        | _ => cases own
      · exact ih _ (fun other there => named other (List.mem_cons_of_mem _ there)) c later

theorem joins_plain (named : ∀ call ∈ calls, ∀ name ∈ call.names, Plain name) :
    ∀ text ∈ calls.flatMap Call.joins, Plain text := by
  intro text member
  obtain ⟨call,there,own⟩ := List.mem_flatMap.mp member
  have plain := named call there
  have joined {kind table on : String} (start : Plain kind) (one : Plain table)
    (two : Plain on) : Plain (kind ++ table ++ " ON " ++ on) :=
    ((start.append one).append (by decide)).append two
  cases call with
  | join table on =>
      cases List.mem_singleton.mp own
      exact joined (by decide) (plain table (by simp [Call.names]))
        (plain on (by simp [Call.names]))
  | leftJoin table on =>
      cases List.mem_singleton.mp own
      exact joined (by decide) (plain table (by simp [Call.names]))
        (plain on (by simp [Call.names]))
  | rightJoin table on =>
      cases List.mem_singleton.mp own
      exact joined (by decide) (plain table (by simp [Call.names]))
        (plain on (by simp [Call.names]))
  | _ => cases own

-- FROM, JOIN and WHERE as the calls ask for them.
def joined (joins : List String) : String := if joins = [] then "" else " " ++ " ".intercalate joins
def filtered (wheres : List Conjunct) : String :=
  if wheres = [] then "" else " WHERE " ++ " AND ".intercalate (wheres.map Conjunct.text)
def source (table : String) (calls : List Call) : String :=
  table ++ joined (calls.flatMap Call.joins) ++ filtered (conditions 0 calls)

theorem built_fromWhere (table : String) (columns : List String) (calls : List Call) :
    ((select table columns).build calls).fromWhere = source table calls := by
  have gains := QueryBuilder.built table columns calls
  unfold QueryBuilder.fromWhere
  rw [gains.table,gains.joins,gains.wheres]
  rfl

theorem filtered_numbers {wheres : List Conjunct} (plain : ∀ c ∈ wheres, Plain c.column) :
    numbers '$' (filtered wheres).toList = (wheres.flatMap Conjunct.placeholders).map
      (Nat.toDigits 10) := by
  unfold filtered
  split
  · rename_i none'
    subst none'
    rfl
  · have keyword : Plain " WHERE " := by decide
    have both : Plain " AND " := by decide
    have breaks : Breaks " AND ".toList := by decide
    rw [String.toList_append,numbers_unmarked keyword,String.toList_intercalate,
      numbers_intercalate both breaks (by decide),List.map_map,List.flatMap_map,List.map_flatMap]
    exact List.flatMap_congr fun c member => conjunct_numbers c (plain c member)

-- The names a statement is made of.
structure Clean (table : String) (columns : List String) (calls : List Call) : Prop where
  table : Plain table
  columns : ∀ column ∈ columns, Plain column
  names : ∀ call ∈ calls, ∀ name ∈ call.names, Plain name

structure Aligned (table : String) (columns : List String) (calls : List Call)
    (q : QueryBuilder) : Prop where
  placeholders : placeholdersIn q.sql.1 = (List.range q.sql.2.length).map fun i => toString (i+1)
  arguments : q.sql.2 = calls.flatMap Call.values
  -- The numbers in a call's own conditions are those of the values it was given.
  owned : ∀ before call after, calls = before ++ call :: after →
    call.conditions (before.flatMap Call.values).length ⊆ q.wheres ∧
      (call.conditions (before.flatMap Call.values).length).flatMap Conjunct.placeholders =
        List.range' ((before.flatMap Call.values).length+1) call.values.length ∧
      (q.sql.2.drop (before.flatMap Call.values).length).take call.values.length = call.values
  statement : q.sql.1 = "SELECT " ++ ", ".intercalate columns ++ " FROM " ++ source table calls ++
    q.ordering ++ q.window
  count : q.countSQL = ("SELECT COUNT(*) FROM " ++ source table calls,q.sql.2)

theorem conditions_append (n : Nat) (before after : List Call) :
    conditions n (before ++ after) = conditions n before ++
      conditions (n+(before.flatMap Call.values).length) after := by
  induction before generalizing n with
  | nil => rfl
  | cons call rest ih =>
      rw [List.cons_append,conditions,conditions,ih,List.append_assoc,List.flatMap_cons,
        List.length_append,Nat.add_assoc]

theorem built_placeholders (clean : Clean table columns calls)
    (ordered : ∀ call ∈ calls, ∀ order ∈ call.direction, Plain order) :
    numbers '$' ((select table columns).build calls).sql.1.toList =
      (List.range' 1 (calls.flatMap Call.values).length).map (Nat.toDigits 10) := by
  have sorted : Plain ((select table columns).build calls).ordering :=
    ordering_plain (build_orderBy ordered clean.names nofun)
  have tail : Plain (((select table columns).build calls).ordering ++
    ((select table columns).build calls).window) := sorted.append (window_plain _)
  have links : Plain (joined (calls.flatMap Call.joins)) := by
    unfold joined
    split
    · decide
    · exact Plain.append (by decide) (Plain.intercalate (by decide) (joins_plain clean.names))
  have front : Plain ("SELECT " ++ ", ".intercalate columns ++ " FROM " ++
    (table ++ joined (calls.flatMap Call.joins))) :=
    ((Plain.append (by decide) (Plain.intercalate (by decide) clean.columns)).append
    (by decide)).append (clean.table.append links)
  have parts : ((select table columns).build calls).sql.1 =
      "SELECT " ++ ", ".intercalate columns ++ " FROM " ++
          (table ++ joined (calls.flatMap Call.joins)) ++ filtered (conditions 0 calls) ++
          (((select table columns).build calls).ordering ++
          ((select table columns).build calls).window) := by
    unfold QueryBuilder.sql
    rw [built_fromWhere,(QueryBuilder.built table columns calls).columns]
    simp only [source,String.append_assoc]
  rw [parts,String.toList_append,numbers_append (ordering_breaks _),numbers_none tail,
    List.append_nil,String.toList_append,numbers_unmarked front,
    filtered_numbers (conditions_plain 0 clean.names),all_numbered]

theorem calls_aligned {table : String} {columns : List String} (clean : Clean table columns calls)
    (ordered : ∀ call ∈ calls, ∀ order ∈ call.direction, Plain order) :
    Aligned table columns calls ((select table columns).build calls) where
  placeholders := by
    have values : ((select table columns).build calls).sql.2 = calls.flatMap Call.values :=
      (QueryBuilder.built table columns calls).args
    rw [placeholdersIn,built_placeholders clean ordered,values,List.map_map,List.range'_eq_map_range,
      List.map_map]
    refine List.map_congr_left fun i _ => ?_
    change String.ofList (Nat.toDigits 10 (1+i)) = Nat.repr (i+1)
    rw [Nat.repr_eq_ofList_toDigits,Nat.add_comm]
  arguments := (QueryBuilder.built table columns calls).args
  owned before call after parts := by
    subst parts
    have gains := QueryBuilder.built table columns (before ++ call :: after)
    refine ⟨fun c member => ?_,conditions_numbered call _,?_⟩
    · rw [gains.wheres,conditions_append,Nat.zero_add]
      exact List.mem_append_right _ (List.mem_append_right _ (List.mem_append_left _ member))
    · change (((select table columns).build _).args.drop _).take _ = _
      rw [gains.args,List.flatMap_append,List.flatMap_cons]
      simp
  statement := by
    unfold QueryBuilder.sql
    rw [built_fromWhere,(QueryBuilder.built table columns calls).columns]
  count := by
    unfold QueryBuilder.countSQL
    rw [built_fromWhere]
    rfl

end Texts

namespace Controls

def calls : List Call :=
  [.whereNull "deleted_at",
    .whereIn "role" (.slice (.other "[]string" "[a b]") [.text "a",.text "b"]),
    .whereLike "name" .nil,.whereBetween "created_at" .zero ⟨1,0⟩,.orderBy "id" "DESC",.paginate 2 10]

theorem calls_aligned_search : ((select "users" ["id"]).build calls).sql =
      ("SELECT id FROM users WHERE deleted_at IS NULL AND role IN ($1, $2) AND created_at < $3 ORDER BY id DESC LIMIT 10 OFFSET 10",
        [.text "a",.text "b",.time ⟨1,0⟩]) ∧
    Aligned "users" ["id"] calls ((select "users" ["id"]).build calls) :=
  ⟨by decide +kernel,calls_aligned ⟨by decide,by decide,by decide⟩ (by decide)⟩

-- The direction of a sort is not among the names, and is written out as it is.
theorem direction_misaligned : Clean "users" ["id"] [.orderBy "id" "$1"] ∧
    ((select "users" ["id"]).build [.orderBy "id" "$1"]).sql =
      ("SELECT id FROM users ORDER BY id $1",[]) ∧
    ¬Aligned "users" ["id"] [.orderBy "id" "$1"]
      ((select "users" ["id"]).build [.orderBy "id" "$1"]) := by
  refine ⟨⟨by decide,by decide,by decide⟩,by decide +kernel,fun aligned => ?_⟩
  have wrong := aligned.placeholders
  revert wrong
  decide +kernel

end Controls
end RestApi.Query
