import RestApi.LikePattern
import RestApi.PageWalk
import RestApi.QueryCalls

namespace RestApi.Audit
open Query

section Actor

-- LIKE with the default escape character.
def specials : LikePattern.Specials Char := ⟨'\\','%','_',by decide⟩

def like (text pattern : String) : Bool := LikePattern.like specials text.toList pattern.toList
def ilike (fold : Char → Char) (text pattern : String) : Bool :=
  LikePattern.like specials (text.toList.map fold) (pattern.toList.map fold)

-- What ApplyFilter binds for a term that is not an id.
def actorPattern (term : String) : String := "%" ++ escapeLike term ++ "%"

theorem actorPattern_containing (term : String) :
    (actorPattern term).toList = LikePattern.containing specials term.toList := by
  have escaped : (escapeLike term).toList = LikePattern.escaped specials term.toList := by
    rw [escapeLike,String.toList_ofList]
    rfl
  rw [actorPattern,String.toList_append,String.toList_append,escaped]
  rfl

theorem ilike_contains {fold : Char → Char} (folds : LikePattern.Folds specials fold)
    (term name : String) :
    ilike fold name (actorPattern term) = true ↔
      term.toList.map fold <:+: name.toList.map fold := by
  rw [ilike,actorPattern_containing,LikePattern.containing_map folds,LikePattern.like_containing]

-- A search for an actor's name finds the names with the term in them, and takes
-- every character of the term literally.
theorem actor_literal (term name : String) :
    (like name (actorPattern term) = true ↔ term.toList <:+: name.toList) ∧
    (∀ fold, LikePattern.Folds specials fold →
      (ilike fold name (actorPattern term) = true ↔
        term.toList.map fold <:+: name.toList.map fold)) ∧
    (LikePattern.tokens specials (actorPattern term).toList).isSome = true := by
  refine ⟨?_,fun fold folds => ilike_contains folds term name,?_⟩
  · rw [like,actorPattern_containing,LikePattern.like_containing]
  · rw [actorPattern_containing,LikePattern.tokens_containing]
    rfl

example : like "50% off_ \\o/" (actorPattern "% off_ \\") = true ∧
    like "50 percent off" (actorPattern "50% off") = false := by
  decide +kernel

-- So the actor condition of a search is about the term as it was typed.
theorem name_admits {db : Database} {fold : Char → Char} (folds : LikePattern.Folds specials fold)
    (compares : db.ilike = ilike fold) (term : String) (row : Joined) :
    (ActorTerm.name term).admits db row =
      row.actor.any fun u => decide (term.toList.map fold <:+: u.user.name.toList.map fold) := by
  have literal : ∀ name, db.ilike name (actorPattern term) = decide
      (term.toList.map fold <:+: name.toList.map fold) := by
    intro name
    rw [compares,Bool.eq_iff_iff,ilike_contains folds,decide_eq_true_eq]
  exact congrArg row.actor.any (funext fun u => literal u.user.name)

end Actor

section Dates
variable (lib : Library) (db : Database) (f : Filter) (q : QueryBuilder) (x : Time)

-- The interval a date range asks for.
def Requested (d : DateRange) : Prop := match usable lib d.date with
  | some (t,_) => t.instant ≤ x ∧ x < t.instant+day
  | none => (∀ t dateOnly, usable lib d.fromDate = some (t,dateOnly) → t.instant ≤ x) ∧
      ∀ t dateOnly, usable lib d.toDate = some (t,dateOnly) →
        x < if dateOnly then t.instant+day else t.instant

-- The conditions on the timestamp that a filter adds to a statement.
def datePredicates : List Conjunct :=
  ((f.applyFilter lib q).2.wheres.drop q.wheres.length).filter fun c => c.column = "e.created_at"

def createdAt (name : String) : Option Scalar :=
  if name = "e.created_at" then some (.instant x) else none

def Satisfies : Prop :=
  ∀ c ∈ datePredicates lib f q, c.holds db createdAt (f.applyFilter lib q).2.args x = true

-- None of the bounds that are asked for is the zero time.
def Unzeroed (d : DateRange) : Prop := match usable lib d.date with
  | some (t,_) => t.isZero = false ∧ (t.add day).isZero = false
  | none => (∀ t dateOnly, usable lib d.fromDate = some (t,dateOnly) → t.isZero = false) ∧
      ∀ t dateOnly, usable lib d.toDate = some (t,dateOnly) →
        (endOf (some (t,dateOnly))).isZero = false

variable {db f q x}

theorem whereActor_gains (actor : String) (q : QueryBuilder) :
    ∃ conditions values, QueryBuilder.Gains q (whereActor lib actor q) conditions values [] ∧
      ∀ c ∈ conditions, c.column ≠ "e.created_at" := by
  unfold whereActor
  cases actorTerm lib actor with
  | blank => exact ⟨[],[],.refl q,nofun⟩
  | uuid id =>
      refine ⟨_,_,QueryBuilder.whereIn_gains q "e.actor_id" [.uuid id],fun c member => ?_⟩
      cases List.mem_singleton.mp member
      simp [Conjunct.column]
  | name text =>
      refine ⟨_,_,QueryBuilder.whereArg_gains q (.ilike "u.name") _,fun c member => ?_⟩
      cases List.mem_singleton.mp member
      simp [Conjunct.column]

variable {lib}

theorem entity_elsewhere {values : List Arg} (c : Conjunct)
    (member : c ∈ if values = [] then [] else [Conjunct.isIn "e.entity"
      (List.range' n values.length)]) : c.column ≠ "e.created_at" := by
  simp only [List.mem_ite_nil_left,List.mem_singleton] at member
  rw [member.2]
  simp [Conjunct.column]

theorem between_there (column : String) (low high : Stamp) :
    ∀ c ∈ (Call.whereBetween column low high).conditions n, c.column = column := by
  intro c member
  simp only [Call.conditions,List.mem_append,List.mem_ite_nil_left,List.mem_singleton] at member
  rcases member with ⟨_,rfl⟩ | ⟨_,rfl⟩ <;> rfl

-- What is left of a filter's conditions on the timestamp, and which arguments
-- stand before and after theirs.
theorem datePredicates_between (lib : Library) (f : Filter) (q : QueryBuilder) :
    ∃ before after : List Arg,
    datePredicates lib f q = (Call.whereBetween "e.created_at" (f.dateRange.bounds lib).2.low
      (f.dateRange.bounds lib).2.high).conditions
      before.length ∧
    (f.applyFilter lib q).2.args = before ++
      (Call.whereBetween "e.created_at" (f.dateRange.bounds lib).2.low
        (f.dateRange.bounds lib).2.high).values ++ after := by
  have entity := QueryBuilder.whereIn_gains q "e.entity" ((f.sanitised lib).entity.map .text)
  have dated := QueryBuilder.whereBetween_gains
    (q.whereIn "e.entity" ((f.sanitised lib).entity.map .text)) "e.created_at"
    (f.dateRange.bounds lib).2.low (f.dateRange.bounds lib).2.high
  obtain ⟨conditions,values,acted,elsewhere⟩ := whereActor_gains lib (trimSpace f.actor)
    ((q.whereIn "e.entity" ((f.sanitised lib).entity.map .text)).whereBetween "e.created_at"
      (f.dateRange.bounds lib).2.low (f.dateRange.bounds lib).2.high)
  refine ⟨(q.whereIn "e.entity" ((f.sanitised lib).entity.map .text)).args,values,?_,?_⟩
  · have parts := applyFilter_parts lib f q
    have others : conditions.filter (fun c => c.column = "e.created_at") = [] := by
      rw [List.filter_eq_nil_iff]
      exact fun c member => by simpa using elsewhere c member
    have own {n : Nat} {low high : Stamp} :
      ((Call.whereBetween "e.created_at" low high).conditions n).filter
      (fun c => c.column = "e.created_at") =
      (Call.whereBetween "e.created_at" low high).conditions n :=
      List.filter_eq_self.mpr fun c member =>
      decide_eq_true (between_there "e.created_at" low high c member)
    rw [datePredicates,parts,acted.wheres,dated.wheres,entity.wheres,List.append_assoc,
      List.append_assoc,List.drop_left,List.filter_append,List.filter_append,others,own,
      List.append_nil,List.filter_eq_nil_iff.mpr,List.nil_append]
    exact fun c member => by simpa using entity_elsewhere c member
  · rw [applyFilter_parts,acted.args,dated.args]

-- Both conditions together, wherever their arguments stand.
theorem between_holds (before after : List Arg) (low high : Stamp) :
    (∀ c ∈ (Call.whereBetween "e.created_at" low high).conditions before.length,
      c.holds db createdAt (before ++ (Call.whereBetween "e.created_at" low high).values ++
        after) x = true) ↔
      (low.isZero = true ∨ low.instant ≤ x) ∧ (high.isZero = true ∨ x < high.instant) := by
  have first (v : Arg) (rest : List Arg) :
    argAt (before ++ v :: rest) (before.length+1) = some v.scalar :=
    argAt_added before (v :: rest) 0
  have second (v w : Arg) (rest : List Arg) : argAt (before ++ v :: w :: rest)
    (before.length+2) = some w.scalar := argAt_added before (v :: w :: rest) 1
  have le (a b : Time) : (Scalar.instant a).le (.instant b) = decide (a ≤ b) := rfl
  simp only [Call.conditions,Call.values]
  cases lowest : low.isZero <;> cases highest : high.isZero
  · simp [Conjunct.holds,first,second,createdAt,le,Arg.scalar]
  · simp [Conjunct.holds,first,createdAt,le,Arg.scalar]
  · simp [Conjunct.holds,first,createdAt,le,Arg.scalar]
  · simp

theorem satisfies_bounds : Satisfies lib db f q x ↔
    ((f.dateRange.bounds lib).2.low.isZero = true ∨ (f.dateRange.bounds lib).2.low.instant ≤ x) ∧
      ((f.dateRange.bounds lib).2.high.isZero = true ∨
        x < (f.dateRange.bounds lib).2.high.instant) := by
  obtain ⟨before,after,predicates,args⟩ := datePredicates_between lib f q
  rw [Satisfies,predicates,args]
  exact between_holds before after _ _

theorem zero_isZero : Stamp.zero.isZero = true := by decide

theorem unzeroed_exact (unzeroed : Unzeroed lib f.dateRange) :
    Satisfies lib db f q x ↔ Requested lib x f.dateRange := by
  rw [satisfies_bounds]
  unfold Unzeroed at unzeroed
  unfold Requested DateRange.bounds
  cases dated : usable lib f.dateRange.date with
  | some bound =>
      obtain ⟨t,dateOnly⟩ := bound
      simp only [dated] at unzeroed ⊢
      rw [unzeroed.1,unzeroed.2]
      simp [Stamp.add]
  | none =>
      simp only [dated] at unzeroed ⊢
      obtain ⟨lowest,highest⟩ := unzeroed
      refine and_congr ?_ ?_
      · cases started : usable lib f.dateRange.fromDate with
        | none => simp [zero_isZero]
        | some bound =>
            obtain ⟨t,dateOnly⟩ := bound
            have clear := lowest t dateOnly started
            cases dateOnly <;> simp [clear]
      · cases ended : usable lib f.dateRange.toDate with
        | none => simp [endOf,zero_isZero]
        | some bound =>
            obtain ⟨t,dateOnly⟩ := bound
            have clear := highest t dateOnly ended
            rw [clear]
            cases dateOnly <;> simp [endOf,Stamp.add]

-- A bound that is taken for none lets an instant through: one just before a lost
-- start, or a lost end itself, on the right side of the other bound.
theorem exact_unzeroed (exact : ∀ x, Satisfies lib db f q x ↔ Requested lib x f.dateRange) :
    Unzeroed lib f.dateRange := by
  simp only [satisfies_bounds] at exact
  unfold Requested DateRange.bounds at exact
  unfold Unzeroed
  have before (a : Int) : a-1 < a := Int.sub_lt_self a (by decide)
  cases dated : usable lib f.dateRange.date with
  | some bound =>
      obtain ⟨t,dateOnly⟩ := bound
      have long : t.instant < t.instant+day := Int.lt_add_of_pos_right _ (by decide)
      simp only [dated,Stamp.add] at exact ⊢
      constructor
      · by_contra lost
        have early := ((exact (t.instant-1)).mp ⟨.inl (Bool.not_eq_false _ ▸ lost),
          .inr (Int.lt_trans (before _) long)⟩).1
        exact absurd early (Int.not_le.mpr (before _))
      · by_contra lost
        have late := ((exact (t.instant+day)).mp ⟨.inr (Int.le_of_lt long),
          .inl (Bool.not_eq_false _ ▸ lost)⟩).2
        exact absurd late (Int.lt_irrefl _)
  | none =>
      simp only [dated] at exact ⊢
      constructor
      · intro t dateOnly started
        by_contra lost
        have early := ((exact (min t.instant (endOf (usable lib f.dateRange.toDate)).instant-1)).mp
          ⟨.inl (by rw [started]; exact Bool.not_eq_false _ ▸ lost),
            .inr (Int.lt_of_lt_of_le (before _) (Int.min_le_right _ _))⟩).1 t dateOnly started
        exact absurd early (Int.not_le.mpr (Int.lt_of_lt_of_le (before _) (Int.min_le_left _ _)))
      · intro t dateOnly ended
        by_contra lost
        have late := ((exact (max (endOf (some (t,dateOnly))).instant
          (((usable lib f.dateRange.fromDate).map Prod.fst).getD .zero).instant)).mp
          ⟨.inr (Int.le_max_right _ _),.inl
          (by rw [ended]; exact Bool.not_eq_false _ ▸ lost)⟩).2 t dateOnly ended
        have same : (if dateOnly = true then t.instant+day else t.instant) =
            (endOf (some (t,dateOnly))).instant := by
          cases dateOnly <;> rfl
        exact absurd (same ▸ late) (Int.not_lt.mpr (Int.le_max_left _ _))

-- The predicates select exactly the interval asked for if and only if no bound of
-- it is the instant that stands for "no bound".
theorem date_filter_exact :
    (∀ x, Satisfies lib db f q x ↔ Requested lib x f.dateRange) ↔ Unzeroed lib f.dateRange :=
  ⟨exact_unzeroed,fun unzeroed _ => unzeroed_exact unzeroed⟩

namespace Controls

-- A library that reads one date the way time.Parse does.
def library : Library where
  upperRune c := c
  lowerRune c := c
  parseTime layout text := if layout = .dateOnly ∧
    text = "0000-12-31" then some ⟨-62135683200*second,0⟩ else none
  formatTime _ _ := ""
  parseUUID _ := none

def untilDay : Filter := ⟨[],"",⟨"","","0000-12-31"⟩⟩

def database : Database := ⟨like,ilike id⟩
def noon : Time := 1704196800*second

theorem untilDay_read : usable library untilDay.dateRange.date = none ∧
    usable library untilDay.dateRange.toDate = some (⟨-62135683200*second,0⟩,true) := by
  decide +kernel

-- The end of the day before the year 1 is the zero time: the range asks for
-- nothing later, and everything is selected.
theorem last_day_unbounded : Satisfies library database untilDay entriesWithActor noon ∧
    ¬Requested library noon untilDay.dateRange := by
  refine ⟨?_,fun requested => ?_⟩
  · have none' : datePredicates library untilDay entriesWithActor = [] := by decide +kernel
    rw [Satisfies,none']
    exact nofun
  · simp only [Requested,untilDay_read.1] at requested
    have early := requested.2 _ _ untilDay_read.2
    revert early
    decide

end Controls
end Dates
end RestApi.Audit
