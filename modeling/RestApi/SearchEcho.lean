import Mathlib.Data.List.TakeWhile
import RestApi.SearchShape

namespace RestApi.Query

-- Assumed of the library. `dates` and `stamps`: a time that parseBound returned,
-- formatted in the layout of its form and parsed again, is the same instant, and
-- formats the same way. No RFC 3339 text is a bare date, and no layout is empty.
structure Lawful (lib : Library) : Prop where
  upper : ∀ s, toUpper lib (toUpper lib s) = toUpper lib s
  lower : ∀ s, toLower lib (toLower lib s) = toLower lib s
  empty : ∀ layout, lib.parseTime layout "" = none
  dates : ∀ text t, lib.parseTime .dateOnly text = some t →
    ∃ again, lib.parseTime .dateOnly (lib.formatTime .dateOnly t) = some again ∧
      again.instant = t.instant ∧ lib.formatTime .dateOnly again = lib.formatTime .dateOnly t
  stamps : ∀ text t, lib.parseTime .rfc3339 text = some t →
    lib.parseTime .dateOnly (lib.formatTime .rfc3339Nano t) = none ∧
      ∃ again, lib.parseTime .rfc3339 (lib.formatTime .rfc3339Nano t) = some again ∧
        again.instant = t.instant ∧ lib.formatTime .rfc3339Nano again =
        lib.formatTime .rfc3339Nano t

-- Times are compared as instants.
def Arg.same : Arg → Arg → Prop
  | .time a,.time b => a.instant = b.instant
  | a,b => a = b

theorem Arg.same_refl (x : Arg) : x.same x := by cases x <;> rfl

theorem same_texts (xs : List String) : List.Forall₂ Arg.same (xs.map .text) (xs.map .text) :=
  List.forall₂_same.mpr fun x _ => Arg.same_refl x

-- Trimming at the end leaves the first character in place.
theorem trim_trim (s : String) : trimSpace (trimSpace s) = trimSpace s := by
  unfold trimSpace
  rw [String.toList_ofList]
  have kept : ((s.toList.dropWhile isSpace).rdropWhile isSpace).dropWhile isSpace =
      (s.toList.dropWhile isSpace).rdropWhile isSpace := by
    rw [List.dropWhile_eq_self_iff]
    intro some
    have shorter := List.rdropWhile_prefix isSpace (l := s.toList.dropWhile isSpace)
    have first := List.dropWhile_get_zero_not isSpace s.toList
      (lt_of_lt_of_le some shorter.length_le)
    rwa [List.get_eq_getElem,← shorter.getElem some] at first
  rw [kept,List.rdropWhile_idempotent]

theorem filterMap_again {f : α → Option α} (fixed : ∀ x y, f x = some y → f y = some y)
    (xs : List α) : (xs.filterMap f).filterMap f = xs.filterMap f := by
  rw [List.filterMap_filterMap]
  apply List.filterMap_congr
  intro x _
  cases found : f x with
  | none => rfl
  | some y => exact fixed x y found

theorem clamped_again (p : Pagination) : p.clamped.clamped = p.clamped := by
  have page : ¬(if p.page < 1 then 1 else p.page) < 1 := by
    split
    · decide
    · assumption
  have low : ¬(if p.limit < 1 then defaultLimit
      else if maxLimit < p.limit then maxLimit else p.limit) < 1 := by
    split
    · decide
    · split
      · decide
      · assumption
  have high : ¬maxLimit <
      (if p.limit < 1 then defaultLimit else if maxLimit < p.limit then maxLimit else p.limit) := by
    split
    · decide
    · split
      · decide
      · assumption
  conv_lhs => unfold Pagination.clamped
  dsimp only [Pagination.clamped]
  rw [if_neg page,if_neg low,if_neg high]

section Fixpoints
variable {lib : Library} (laws : Lawful lib)

theorem cleaned_again (allowed : List (String × String)) (blank : allowed.lookup "" = none)
    (s : Sorting) : (s.cleaned lib allowed).cleaned lib allowed = s.cleaned lib allowed := by
  unfold Sorting.cleaned
  cases found : allowed.lookup s.sort with
  | none => simp only [blank]
  | some column =>
      have asc : toUpper lib "ASC" = "ASC" := rfl
      have desc : toUpper lib "DESC" = "DESC" := rfl
      simp only [found]
      by_cases down : toUpper lib s.order = "DESC"
      · simp [down,desc]
      · by_cases up : toUpper lib s.order = "ASC"
        · simp [up,asc]
        · simp [up,down,asc]

include laws

theorem parseGender_again (s g : String) (parsed : User.parseGender lib s = some g) :
    User.parseGender lib g = some g := by
  unfold User.parseGender at parsed ⊢
  dsimp only at parsed ⊢
  split at parsed
  · rename_i valid
    have equal := Option.some.inj parsed
    subst equal
    have trimmed : trimSpace (toUpper lib (trimSpace s)) = toUpper lib (trimSpace s) := by
      simp only [Gender.isValid,Bool.or_eq_true,decide_eq_true_eq] at valid
      rcases valid with (male | female) | other
      · rw [male]; decide
      · rw [female]; decide
      · rw [other]; decide
    rw [trimmed,laws.upper,if_pos valid]
  · cases parsed

theorem parseRole_again (s r : String) (parsed : (User.parseRole lib s).map Role.text = some r) :
    (User.parseRole lib r).map Role.text = some r := by
  obtain ⟨role,found,rfl⟩ := Option.map_eq_some_iff.mp parsed
  unfold User.parseRole at found ⊢
  have text : role.text = toLower lib (trimSpace s) := by simpa using List.find?_some found
  have lowered : toLower lib (trimSpace role.text) = role.text := by
    have trimmed : trimSpace role.text = role.text := by cases role <;> decide
    rw [trimmed,text,laws.lower]
  dsimp only
  rw [lowered]
  cases role <;> decide

theorem parseEntity_again (s name : String) (parsed : Audit.parseEntity lib s = some name) :
    Audit.parseEntity lib name = some name := by
  unfold Audit.parseEntity at parsed ⊢
  dsimp only at parsed ⊢
  split at parsed
  · rename_i valid
    have equal := Option.some.inj parsed
    subst equal
    have trimmed : trimSpace (toLower lib (trimSpace s)) = toLower lib (trimSpace s) := by
      generalize toLower lib (trimSpace s) = entity at valid
      revert entity
      decide
    rw [trimmed,laws.lower,if_pos valid]
  · cases parsed

-- The canonical form of a bound, read again.
theorem parseBound_again (parsed : parseBound lib text = some (t,dateOnly)) :
    ∃ again, usable lib (canonicalDate lib t dateOnly) = some (again,dateOnly) ∧
      again.instant = t.instant ∧
      canonicalDate lib again dateOnly = canonicalDate lib t dateOnly := by
  have nonempty : ∀ {layout form found}, lib.parseTime layout form = some found → form ≠ "" := by
    intro layout form found read empty
    rw [empty,laws.empty] at read
    cases read
  unfold parseBound at parsed
  cases date : lib.parseTime .dateOnly text with
  | some s =>
      simp only [date,Option.some.injEq,Prod.mk.injEq] at parsed
      obtain ⟨rfl,rfl⟩ := parsed
      obtain ⟨again,read,instant,form⟩ := laws.dates _ _ date
      refine ⟨again,?_,instant,form⟩
      unfold usable parseBound canonicalDate
      simp only [↓reduceIte,if_neg (nonempty read),read]
  | none =>
      simp only [date,Option.map_eq_some_iff,Prod.mk.injEq] at parsed
      obtain ⟨s,stamp,rfl,rfl⟩ := parsed
      obtain ⟨undated,again,read,instant,form⟩ := laws.stamps _ _ stamp
      refine ⟨again,?_,instant,form⟩
      unfold usable parseBound canonicalDate
      simp only [Bool.false_eq_true,↓reduceIte,if_neg (nonempty read),undated,read,Option.map_some]

theorem usable_again (text : String) :
    (usable lib text = none ∧ usable lib (written lib (usable lib text)) = none) ∨
      ∃ t again dateOnly, usable lib text = some (t,dateOnly) ∧
        usable lib (canonicalDate lib t dateOnly) = some (again,dateOnly) ∧
        again.instant = t.instant ∧ canonicalDate lib again dateOnly =
          canonicalDate lib t dateOnly := by
  cases found : usable lib text with
  | none => exact .inl ⟨rfl,rfl⟩
  | some pair =>
      obtain ⟨t,dateOnly⟩ := pair
      have parsed : parseBound lib text = some (t,dateOnly) := by
        unfold usable at found
        split at found
        · cases found
        · exact found
      obtain ⟨again,read,instant,form⟩ := parseBound_again laws parsed
      exact .inr ⟨t,again,dateOnly,rfl,read,instant,form⟩

-- One bound, read from what is written back for it.
structure Rereads (lib : Library) (found again : Option (Stamp × Bool)) : Prop where
  form : written lib again = written lib found
  low : ((again.map Prod.fst).getD .zero).instant = ((found.map Prod.fst).getD .zero).instant
  high : (endOf again).instant = (endOf found).instant

theorem written_again (text : String) :
    Rereads lib (usable lib text) (usable lib (written lib (usable lib text))) := by
  rcases usable_again laws text with ⟨none',again⟩ | ⟨t,again,dateOnly,found,read,instant,form⟩
  · rw [again,none']
    exact ⟨rfl,rfl,rfl⟩
  · rw [found]
    change Rereads lib _ (usable lib (canonicalDate lib t dateOnly))
    rw [read]
    refine ⟨form,instant,?_⟩
    unfold endOf
    cases dateOnly with
    | true => simp [Stamp.add,instant]
    | false => exact instant

theorem bounds_again (d : DateRange) :
    ((d.bounds lib).1.bounds lib).1 = (d.bounds lib).1 ∧
      ((d.bounds lib).1.bounds lib).2.low.instant = (d.bounds lib).2.low.instant ∧
      ((d.bounds lib).1.bounds lib).2.high.instant = (d.bounds lib).2.high.instant := by
  rcases usable_again laws d.date with ⟨undated,_⟩ | ⟨t,again,dateOnly,found,read,instant,form⟩
  · have blank : usable lib "" = none := rfl
    have low := written_again laws d.fromDate
    have high := written_again laws d.toDate
    unfold DateRange.bounds
    simp only [undated,blank]
    exact ⟨by rw [low.form,high.form],low.low,high.high⟩
  · unfold DateRange.bounds
    simp only [found,read]
    exact ⟨by rw [form],instant,by simp [Stamp.add,instant]⟩

omit laws in
theorem isZero_of_instant (instant : a.instant = b.instant) : Stamp.isZero a = Stamp.isZero b := by
  unfold Stamp.isZero
  rw [instant]

end Fixpoints

-- Of a search, the builder it is applied to and the total of the count
-- statement: the search made from the echoed metadata runs the same statements
-- with the same arguments, and is echoed as the same metadata.
def Reproduces (lib : Library) (c : Capabilities F) (q : QueryBuilder) (total : Int64)
    (s : Search F) : Prop :=
  let first := applyQuery lib c s q
  let again := applyQuery lib c (Search.ofMeta (first.1.setMeta total)) q
  again.2.sql.1 = first.2.sql.1 ∧ List.Forall₂ Arg.same again.2.sql.2 first.2.sql.2 ∧
    again.2.countSQL.1 = first.2.countSQL.1 ∧
      List.Forall₂ Arg.same again.2.countSQL.2 first.2.countSQL.2 ∧
    again.1.setMeta total = first.1.setMeta total

theorem reproduces_of_filter (lib : Library) (c : Capabilities F)
    (blank : c.sortFields.lookup "" = none) (q : QueryBuilder) (total : Int64) (s : Search F)
    (filter : (c.applyFilter (c.applyFilter s.filter q).1 q).1 = (c.applyFilter s.filter q).1)
    (text : Matches Arg.same (c.applyFilter (c.applyFilter s.filter q).1 q).2
      (c.applyFilter s.filter q).2) : Reproduces lib c q total s := by
  have echoed : Search.ofMeta ((applyQuery lib c s q).1.setMeta total) =
      ⟨(c.applyFilter s.filter q).1,s.sorting.cleaned lib c.sortFields,s.pagination.clamped⟩ := by
    rw [applyQuery_parts lib c blank]
    rfl
  have sorting : (s.sorting.cleaned lib c.sortFields).cleaned lib c.sortFields =
    s.sorting.cleaned lib c.sortFields := cleaned_again c.sortFields blank s.sorting
  have pagination := clamped_again s.pagination
  have search : (applyQuery lib c (Search.ofMeta ((applyQuery lib c s q).1.setMeta total)) q).1 =
      (applyQuery lib c s q).1 := by
    rw [echoed,applyQuery_parts lib c blank,applyQuery_parts lib c blank,filter,sorting,pagination]
  have both : Matches Arg.same (applyQuery lib c
      (Search.ofMeta ((applyQuery lib c s q).1.setMeta total)) q).2 (applyQuery lib c s q).2 := by
    rw [echoed]
    exact applyQuery_matches lib c blank text sorting pagination
  unfold Reproduces
  dsimp only
  rw [search]
  exact ⟨(sql_matches both).1,(sql_matches both).2,(countSQL_matches both).1,
    (countSQL_matches both).2,rfl⟩

theorem user_reproduces (laws : Lawful lib) (s : Search User.Filter) :
    Reproduces lib (User.capabilities lib) q total s := by
  have filter : (s.filter.sanitised lib).sanitised lib = s.filter.sanitised lib := by
    unfold User.Filter.sanitised
    rw [filterMap_again (parseGender_again laws),filterMap_again (parseRole_again laws)]
  apply reproduces_of_filter lib _ rfl
  · exact filter
  · change Matches _ ((s.filter.sanitised lib).applyFilter lib q).2 _
    apply User.applyFilter_matches lib
    · rw [filter]
      exact same_texts _
    · rw [filter]
      exact same_texts _
    · exact .refl Arg.same_refl q

theorem whereActor_same (actor : String) (both : Matches Arg.same a b) :
    Matches Arg.same (Audit.whereActor lib actor a) (Audit.whereActor lib actor b) := by
  apply Audit.whereActor_matches lib rfl _ _ both
  · intro i j first other
    cases first.symm.trans other
    exact Arg.same_refl _
  · intro i j first other
    cases first.symm.trans other
    exact Arg.same_refl _

theorem audit_reproduces (laws : Lawful lib) (s : Search Audit.Filter) :
    Reproduces lib (Audit.capabilities lib) q total s := by
  obtain ⟨range,low,high⟩ := bounds_again laws s.filter.dateRange
  have filter : (s.filter.sanitised lib).sanitised lib = s.filter.sanitised lib := by
    unfold Audit.Filter.sanitised
    rw [filterMap_again (parseEntity_again laws),trim_trim,range]
  have actor : trimSpace (s.filter.sanitised lib).actor = trimSpace s.filter.actor :=
    trim_trim s.filter.actor
  apply reproduces_of_filter lib _ rfl
  · exact filter
  · change Matches _ ((s.filter.sanitised lib).applyFilter lib q).2 _
    apply Audit.applyFilter_matches lib
    · rw [filter]
      exact same_texts _
    · exact isZero_of_instant low
    · exact isZero_of_instant high
    · exact low
    · exact high
    · intro a b both
      rw [actor]
      exact whereActor_same _ both
    · exact .refl Arg.same_refl q

theorem echo_reproduces (lib : Library) (laws : Lawful lib) (q : QueryBuilder) (total : Int64) :
    (∀ s : Search User.Filter, Reproduces lib (User.capabilities lib) q total s) ∧
      ∀ s : Search Audit.Filter, Reproduces lib (Audit.capabilities lib) q total s :=
  ⟨user_reproduces laws,audit_reproduces laws⟩

namespace Controls

theorem ascii_again (f : Char → Char)
    (fixed : ∀ n < 128, (f (Char.ofNat n)).toNat < 128 ∧ f (f (Char.ofNat n)) = f (Char.ofNat n))
    (s : String) : let map :=
  fun text : String => String.ofList (text.toList.map fun c => if c.toNat < 128 then f c else id c)
      map (map s) = map s := by
    dsimp only
    rw [String.toList_ofList,List.map_map]
    congr 2
    funext c
    dsimp only [Function.comp]
    by_cases small : c.toNat < 128
    · have chosen := fixed c.toNat small
      rw [Char.ofNat_toNat] at chosen
      simp only [small,chosen,↓reduceIte]
    · simp only [small,id,↓reduceIte]

theorem library_lawful : Lawful library where
  upper := ascii_again Char.toUpper (by decide)
  lower := ascii_again Char.toLower (by decide)
  empty layout := by cases layout <;> rfl
  dates text t found := by
    refine ⟨⟨1767312000 * second,0⟩,rfl,?_,rfl⟩
    simp only [library] at found
    split at found
    · cases found
      rfl
    · simp at found
  stamps text t found := by
    refine ⟨rfl,⟨1767297845 * second,7 * 3600 * second⟩,rfl,?_,rfl⟩
    simp only [library,reduceCtorEq,false_and,if_false] at found
    split at found
    · cases found
      rfl
    · cases found

theorem echo_reproduces_window : Reproduces library (Audit.capabilities library)
    (select "audit_logs AS e" ["e.id"]) 7
    (asked " Ann " "USER") :=
  (echo_reproduces library library_lawful _ 7).2 (asked " Ann " "USER")

end Controls

end RestApi.Query
