import Mathlib.Data.List.Forall2
import RestApi.Search

namespace RestApi.Query

-- Two builders with one text whose arguments stand in a relation, one by one.
structure Matches (R : Arg → Arg → Prop) (a b : QueryBuilder) : Prop where
  table : a.table = b.table
  columns : a.columns = b.columns
  joins : a.joins = b.joins
  wheres : a.wheres = b.wheres
  orderBy : a.orderBy = b.orderBy
  limit : a.limit = b.limit
  offset : a.offset = b.offset
  args : List.Forall₂ R a.args b.args

section Congruence
variable {R : Arg → Arg → Prop} {a b : QueryBuilder}

theorem Matches.refl (same : ∀ x, R x x) (q : QueryBuilder) : Matches R q q where
  table := rfl
  columns := rfl
  joins := rfl
  wheres := rfl
  orderBy := rfl
  limit := rfl
  offset := rfl
  args := List.forall₂_same.mpr fun x _ => same x

theorem sql_matches (both : Matches R a b) :
    a.sql.1 = b.sql.1 ∧ List.Forall₂ R a.sql.2 b.sql.2 := by
  have text : a.sql.1 = b.sql.1 := by
    unfold QueryBuilder.sql QueryBuilder.fromWhere QueryBuilder.ordering QueryBuilder.window
    rw [both.table,both.columns,both.joins,both.wheres,both.orderBy,both.limit,both.offset]
  exact ⟨text,both.args⟩

theorem countSQL_matches (both : Matches R a b) :
    a.countSQL.1 = b.countSQL.1 ∧ List.Forall₂ R a.countSQL.2 b.countSQL.2 := by
  have text : a.countSQL.1 = b.countSQL.1 := by
    unfold QueryBuilder.countSQL QueryBuilder.fromWhere
    rw [both.table,both.joins,both.wheres]
  exact ⟨text,both.args⟩

theorem addWhere_matches (conjunct : Conjunct) (both : Matches R a b) :
    Matches R (a.addWhere conjunct) (b.addWhere conjunct) :=
  {both with wheres := by unfold QueryBuilder.addWhere; rw [both.wheres]}

theorem addArg_matches (related : R x y) (both : Matches R a b) :
    (a.addArg x).1 = (b.addArg y).1 ∧ Matches R (a.addArg x).2 (b.addArg y).2 := by
  refine ⟨?_,{both with args := ?_}⟩
  · unfold QueryBuilder.addArg
    rw [both.args.length_eq]
  · exact List.rel_append both.args (.cons related .nil)

theorem addArgs_matches (related : List.Forall₂ R xs ys) (both : Matches R a b) :
    (QueryBuilder.addArgs xs a).1 = (QueryBuilder.addArgs ys b).1 ∧
      Matches R (QueryBuilder.addArgs xs a).2 (QueryBuilder.addArgs ys b).2 := by
  induction related generalizing a b with
  | nil => exact ⟨rfl,both⟩
  | cons first _ ih =>
      obtain ⟨number,next⟩ := addArg_matches first both
      obtain ⟨numbers,last⟩ := ih next
      have listed : (a.addArg _).1 :: (QueryBuilder.addArgs _ (a.addArg _).2).1 =
        (b.addArg _).1 :: _ := congrArg₂ List.cons number numbers
      exact ⟨listed,last⟩

theorem whereArg_matches (conjunct : Nat → Conjunct) (related : R x y) (both : Matches R a b) :
    Matches R (a.whereArg conjunct x) (b.whereArg conjunct y) := by
  obtain ⟨number,next⟩ := addArg_matches related both
  change Matches R ((a.addArg x).2.addWhere (conjunct (a.addArg x).1))
    ((b.addArg y).2.addWhere (conjunct (b.addArg y).1))
  rw [number]
  exact addWhere_matches _ next

theorem whereIn_matches (column : String) (related : List.Forall₂ R xs ys) (both : Matches R a b) :
    Matches R (a.whereIn column xs) (b.whereIn column ys) := by
  cases related with
  | nil => exact both
  | @cons x y xs ys first rest =>
      obtain ⟨numbers,next⟩ := addArgs_matches (.cons first rest) both
      change Matches R ((QueryBuilder.addArgs (x :: xs) a).2.addWhere
        (.isIn column (QueryBuilder.addArgs (x :: xs) a).1))
        ((QueryBuilder.addArgs (y :: ys) b).2.addWhere
        (.isIn column (QueryBuilder.addArgs (y :: ys) b).1))
      rw [numbers]
      exact addWhere_matches _ next

theorem whereBetween_matches (column : String) (low : a₁.isZero = b₁.isZero)
    (high : a₂.isZero = b₂.isZero) (lows : R (.time a₁) (.time b₁))
    (highs : R (.time a₂) (.time b₂)) (both : Matches R a b) :
    Matches R (a.whereBetween column a₁ a₂) (b.whereBetween column b₁ b₂) := by
  have first : Matches R (if a₁.isZero then a else a.whereArg (.atLeast column) (.time a₁))
      (if b₁.isZero then b else b.whereArg (.atLeast column) (.time b₁)) := by
    rw [low]
    split
    · exact both
    · exact whereArg_matches _ lows both
  unfold QueryBuilder.whereBetween
  rw [high]
  dsimp only
  split
  · exact first
  · exact whereArg_matches _ highs first

theorem order_matches (column order : String) (both : Matches R a b) :
    Matches R (a.order column order) (b.order column order) := by
  unfold QueryBuilder.order
  split
  · exact both
  · exact {both with orderBy := rfl}

theorem paginate_matches (page limit : Int64) (both : Matches R a b) :
    Matches R (a.paginate page limit) (b.paginate page limit) := by
  unfold QueryBuilder.paginate
  split
  · exact both
  · dsimp only
    split
    · exact {both with limit := rfl,offset := rfl}
    · exact {both with limit := rfl}

end Congruence

section Ordering
variable (lib : Library) (allowed : List (String × String))

-- The sort key and direction that are left in the request, and the ORDER BY
-- they stand for.
def Sorting.cleaned (s : Sorting) : Sorting :=
  match allowed.lookup s.sort with
  | none => ⟨"",""⟩
  | some _ =>
      {s with order :=
        if toUpper lib s.order ≠ "ASC" ∧ toUpper lib s.order ≠ "DESC" then "ASC"
        else toUpper lib s.order}

def Sorting.orders (s : Sorting) (q : QueryBuilder) : QueryBuilder :=
  match allowed.lookup s.sort with
  | none => q
  | some column => q.order column s.order

theorem applySort_parts (blank : allowed.lookup "" = none) (s : Sorting) (q : QueryBuilder) :
    s.applySort lib q allowed = (s.cleaned lib allowed,
      (s.cleaned lib allowed).orders allowed q) := by
  unfold Sorting.applySort Sorting.cleaned Sorting.orders
  cases found : allowed.lookup s.sort with
  | none => simp only [blank]
  | some column => simp only [found]

theorem orders_matches (s : Sorting) (both : Matches R a b) :
    Matches R (s.orders allowed a) (s.orders allowed b) := by
  unfold Sorting.orders
  split
  · exact both
  · exact order_matches _ _ both

omit allowed in
theorem applyQuery_parts (c : Capabilities F) (blank : c.sortFields.lookup "" = none) (s : Search F)
    (q : QueryBuilder) :
    applyQuery lib c s q =
      (⟨(c.applyFilter s.filter q).1,s.sorting.cleaned lib c.sortFields,s.pagination.clamped⟩,
        ((s.sorting.cleaned lib c.sortFields).orders c.sortFields
          (c.applyFilter s.filter q).2).paginate
          s.pagination.clamped.page s.pagination.clamped.limit) := by
  unfold applyQuery
  dsimp only
  rw [applySort_parts lib _ blank]
  rfl

end Ordering

end RestApi.Query

namespace RestApi.User
open Query

structure Shape where
  genders : Nat
  roles : Nat
  sorting : Sorting
  pagination : Pagination
  deriving DecidableEq, Repr

variable (lib : Library)

def shape (s : Search Filter) : Shape where
  genders := (s.filter.sanitised lib).gender.length
  roles := (s.filter.sanitised lib).role.length
  sorting := s.sorting.cleaned lib sortFields
  pagination := s.pagination.clamped

-- What holds of the arguments: whatever relates the surviving filter values.
theorem applyFilter_matches {f g : Filter}
    (genders : List.Forall₂ R ((f.sanitised lib).gender.map .text)
      ((g.sanitised lib).gender.map .text))
    (roles : List.Forall₂ R ((f.sanitised lib).role.map .text) ((g.sanitised lib).role.map .text))
    (both : Matches R a b) : Matches R (f.applyFilter lib a).2 (g.applyFilter lib b).2 := by
  unfold Filter.applyFilter
  apply whereIn_matches _ roles
  apply whereIn_matches _ genders
  exact both

end RestApi.User

namespace RestApi.Audit
open Query

inductive ActorKind where
  | blank
  | uuid
  | text
  deriving DecidableEq, Repr

def ActorTerm.kind : ActorTerm → ActorKind
  | .blank => .blank
  | .uuid _ => .uuid
  | .name _ => .text

structure Shape where
  entities : Nat
  bounded : Bool × Bool
  actor : ActorKind
  sorting : Sorting
  pagination : Pagination
  deriving DecidableEq, Repr

variable (lib : Library)

def shape (s : Search Filter) : Shape where
  entities := (s.filter.sanitised lib).entity.length
  bounded := (!(s.filter.dateRange.bounds lib).2.low.isZero,
    !(s.filter.dateRange.bounds lib).2.high.isZero)
  actor := (actorTerm lib (trimSpace s.filter.actor)).kind
  sorting := s.sorting.cleaned lib sortFields
  pagination := s.pagination.clamped

-- Without ok both bounds are zero, and then WhereBetween adds nothing either.
theorem bounds_unused (d : DateRange) (q : QueryBuilder) :
    (if (d.bounds lib).2.ok then q.whereBetween "e.created_at" (d.bounds lib).2.low
      (d.bounds lib).2.high else q) =
      q.whereBetween "e.created_at" (d.bounds lib).2.low (d.bounds lib).2.high := by
  split
  · rfl
  · rename_i unused
    unfold DateRange.bounds at unused ⊢
    cases date : usable lib d.date with
    | some found => simp [date] at unused
    | none =>
        simp only [date,Bool.or_eq_true,not_or,Bool.not_eq_true,Option.isSome_eq_false_iff,
          Option.isNone_iff_eq_none] at unused
        simp only [unused.1,unused.2]
        rfl

theorem applyFilter_parts (f : Filter) (q : QueryBuilder) :
    (f.applyFilter lib q).2 = whereActor lib (trimSpace f.actor)
      ((q.whereIn "e.entity" ((f.sanitised lib).entity.map .text)).whereBetween "e.created_at"
        (f.dateRange.bounds lib).2.low
        (f.dateRange.bounds lib).2.high) := by
  unfold Filter.applyFilter
  dsimp only
  rw [bounds_unused]
  rfl

theorem whereActor_matches (kinds : (actorTerm lib x).kind = (actorTerm lib y).kind)
    (ids : ∀ i j, actorTerm lib x = .uuid i → actorTerm lib y = .uuid j → R (.uuid i) (.uuid j))
    (names : ∀ i j, actorTerm lib x = .name i → actorTerm lib y = .name j →
      R (.text ("%" ++ escapeLike i ++ "%")) (.text ("%" ++ escapeLike j ++ "%")))
    (both : Matches R a b) : Matches R (whereActor lib x a) (whereActor lib y b) := by
  unfold whereActor
  cases first : actorTerm lib x <;> cases other :
    actorTerm lib y <;> rw [first,other] at kinds <;> simp only [ActorTerm.kind,reduceCtorEq]
    at kinds
  · exact both
  · exact whereIn_matches _ (.cons (ids _ _ first other) .nil) both
  · exact whereArg_matches _ (names _ _ first other) both

theorem applyFilter_matches {f g : Filter}
    (entities : List.Forall₂ R ((f.sanitised lib).entity.map .text)
      ((g.sanitised lib).entity.map .text))
    (low : (f.dateRange.bounds lib).2.low.isZero = (g.dateRange.bounds lib).2.low.isZero)
    (high : (f.dateRange.bounds lib).2.high.isZero = (g.dateRange.bounds lib).2.high.isZero)
    (lows : R (.time (f.dateRange.bounds lib).2.low) (.time (g.dateRange.bounds lib).2.low))
    (highs : R (.time (f.dateRange.bounds lib).2.high) (.time (g.dateRange.bounds lib).2.high))
    (actors : ∀ {a b}, Matches R a b → Matches R (whereActor lib (trimSpace f.actor) a)
      (whereActor lib (trimSpace g.actor) b)) (both : Matches R a b) :
    Matches R (f.applyFilter lib a).2 (g.applyFilter lib b).2 := by
  rw [applyFilter_parts,applyFilter_parts]
  apply actors
  apply whereBetween_matches _ low high lows highs
  exact whereIn_matches _ entities both

end RestApi.Audit

namespace RestApi.Query

-- The relation that says nothing of the arguments but how many they are.
def Any (_ _ : Arg) : Prop := True

theorem any_of_length {xs ys : List Arg}
    (length : xs.length = ys.length) : List.Forall₂ Any xs ys :=
  List.forall₂_iff_zip.mpr ⟨length,fun _ => trivial⟩

theorem applyQuery_matches (lib : Library) (c : Capabilities F)
    (blank : c.sortFields.lookup "" = none) {s t : Search F}
    (filters : Matches R (c.applyFilter s.filter a).2 (c.applyFilter t.filter b).2)
    (sorting : s.sorting.cleaned lib c.sortFields = t.sorting.cleaned lib c.sortFields)
    (pagination : s.pagination.clamped = t.pagination.clamped) :
    Matches R (applyQuery lib c s a).2 (applyQuery lib c t b).2 := by
  rw [applyQuery_parts lib c blank,applyQuery_parts lib c blank,sorting,pagination]
  apply paginate_matches
  exact orders_matches _ _ filters

section Injection
variable (lib : Library) (q : QueryBuilder)

theorem user_text (shapes : User.shape lib s = User.shape lib t) :
    Matches Any (applyQuery lib (User.capabilities lib) s q).2
      (applyQuery lib (User.capabilities lib) t q).2 := by
  simp only [User.shape,User.Shape.mk.injEq] at shapes
  obtain ⟨genders,roles,sorting,pagination⟩ := shapes
  apply applyQuery_matches lib _ rfl _ sorting pagination
  apply User.applyFilter_matches
  · exact any_of_length (by simpa using genders)
  · exact any_of_length (by simpa using roles)
  · exact .refl (fun _ => trivial) q

theorem audit_text (shapes : Audit.shape lib s = Audit.shape lib t) :
    Matches Any (applyQuery lib (Audit.capabilities lib) s q).2
      (applyQuery lib (Audit.capabilities lib) t q).2 := by
  simp only [Audit.shape,Audit.Shape.mk.injEq,Prod.mk.injEq,Bool.not_inj_iff] at shapes
  obtain ⟨entities,⟨low,high⟩,actors,sorting,pagination⟩ := shapes
  apply applyQuery_matches lib _ rfl _ sorting pagination
  apply Audit.applyFilter_matches lib (any_of_length
    (by simpa using entities)) low high trivial trivial
  · intro a b both
    exact Audit.whereActor_matches lib actors (fun _ _ _ _ => trivial) (fun _ _ _ _ => trivial) both
  · exact .refl (fun _ => trivial) q

theorem statements_of_shape :
    (∀ s t : Search User.Filter, User.shape lib s = User.shape lib t →
      (applyQuery lib (User.capabilities lib) s q).2.sql.1 =
        (applyQuery lib (User.capabilities lib) t q).2.sql.1 ∧
      (applyQuery lib (User.capabilities lib) s q).2.countSQL.1 =
        (applyQuery lib (User.capabilities lib) t q).2.countSQL.1) ∧
    ∀ s t : Search Audit.Filter, Audit.shape lib s = Audit.shape lib t →
      (applyQuery lib (Audit.capabilities lib) s q).2.sql.1 =
        (applyQuery lib (Audit.capabilities lib) t q).2.sql.1 ∧
      (applyQuery lib (Audit.capabilities lib) s q).2.countSQL.1 =
        (applyQuery lib (Audit.capabilities lib) t q).2.countSQL.1 := by
  constructor
  · intro s t shapes
    have both := user_text lib q shapes
    exact ⟨(sql_matches both).1,(countSQL_matches both).1⟩
  · intro s t shapes
    have both := audit_text lib q shapes
    exact ⟨(sql_matches both).1,(countSQL_matches both).1⟩

namespace Controls

-- One date and one timestamp are all this library reads.
def library : Library where
  upperRune := id
  lowerRune := id
  parseTime layout text :=
    if layout = .dateOnly ∧ text = "2026-01-02" then some ⟨1767312000 * second,0⟩
    else if layout = .rfc3339 ∧ text = "2026-01-02T03:04:05+07:00" then some ⟨1767297845 * second,
      7 * 3600 * second⟩
    else none
  formatTime layout _ := if layout = .dateOnly then "2026-01-02" else "2026-01-02T03:04:05+07:00"
  parseUUID _ := none

def asked (actor entity : String) : Search Audit.Filter :=
  ⟨⟨[entity,"nothing"],actor,⟨"","2026-01-02",""⟩⟩,⟨"created_at","desc"⟩,⟨0,1000⟩⟩

theorem statements_of_shape_hostile :
    (Audit.list library (asked " ann " "USER")).2.sql.1 =
      (Audit.list library (asked "'; DROP TABLE users; --" " session ")).2.sql.1 :=
  ((statements_of_shape library _).2 (asked " ann " "USER")
    (asked "'; DROP TABLE users; --" " session ") (by decide +kernel)).1

end Controls
end Injection

end RestApi.Query
