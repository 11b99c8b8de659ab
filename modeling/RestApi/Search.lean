import Mathlib.Data.List.DropRight
import RestApi.QueryBuilder

namespace RestApi.Query

inductive Layout where
  | dateOnly
  | rfc3339
  | rfc3339Nano
  deriving DecidableEq, Repr

-- What the searches call of the Go library and is not modelled below: case
-- mapping beyond ASCII, time.Parse, time.Format and uuid.Parse.
structure Library where
  upperRune : Char → Char
  lowerRune : Char → Char
  parseTime : Layout → String → Option Stamp
  formatTime : Layout → Stamp → String
  parseUUID : String → Option UUID

-- unicode.IsSpace
def isSpace (c : Char) : Bool :=
  c.toNat ∈ [9,10,11,12,13,32,0x85,0xa0,0x1680,0x2028,0x2029,0x202f,0x205f,0x3000] ||
    (0x2000 ≤ c.toNat && c.toNat ≤ 0x200a)

def trimSpace (s : String) : String :=
  String.ofList ((s.toList.dropWhile isSpace).rdropWhile isSpace)

variable (lib : Library)

def toUpper (s : String) : String :=
  String.ofList (s.toList.map fun c => if c.toNat < 128 then c.toUpper else lib.upperRune c)

def toLower (s : String) : String :=
  String.ofList (s.toList.map fun c => if c.toNat < 128 then c.toLower else lib.lowerRune c)

structure PaginationMeta where
  page : Int64
  limit : Int64
  total : Int64
  totalPages : Int64
  deriving DecidableEq, Repr

structure Pagination where
  page : Int64
  limit : Int64
  deriving DecidableEq, Repr

def defaultLimit : Int64 := 20
def maxLimit : Int64 := 100

def Pagination.clamped (p : Pagination) : Pagination where
  page := if p.page < 1 then 1 else p.page
  limit := if p.limit < 1 then defaultLimit else if maxLimit < p.limit then maxLimit else p.limit

def Pagination.applyPagination (p : Pagination) (q : QueryBuilder) : Pagination × QueryBuilder :=
  (p.clamped,q.paginate p.clamped.page p.clamped.limit)

def Pagination.pageMeta (p : Pagination) (total : Int64) : PaginationMeta where
  page := p.page
  limit := p.limit
  total := total
  totalPages := if 0 < p.limit then (total + p.limit - 1) / p.limit else 0

-- The field By, under its name in the query string.
structure Sorting where
  sort : String
  order : String
  deriving DecidableEq, Repr

def Sorting.applySort (s : Sorting) (q : QueryBuilder)
    (allowed : List (String × String)) : Sorting × QueryBuilder :=
  match allowed.lookup s.sort with
  | none => (⟨"",""⟩,q)
  | some column =>
    let order := toUpper lib s.order
    let order := if order ≠ "ASC" ∧ order ≠ "DESC" then "ASC" else order
    ({s with order},q.order column order)

structure DateRange where
  date : String
  fromDate : String
  toDate : String
  deriving DecidableEq, Repr

-- With the flag dateOnly: which of the two forms matched.
def parseBound (value : String) : Option (Stamp × Bool) :=
  match lib.parseTime .dateOnly value with
  | some t => some (t,true)
  | none => (lib.parseTime .rfc3339 value).map fun t => (t,false)

def canonicalDate (t : Stamp) (dateOnly : Bool) : String :=
  if dateOnly then lib.formatTime .dateOnly t else lib.formatTime .rfc3339Nano t

-- A field that is not empty and parses, and what is written back for it.
def usable (text : String) : Option (Stamp × Bool) :=
  if text = "" then none else parseBound lib text

def written : Option (Stamp × Bool) → String
  | none => ""
  | some (t,dateOnly) => canonicalDate lib t dateOnly

def day : Duration := 24 * 60 * 60 * second

-- A bare date parses to midnight UTC, so AddDate(0, 0, 1) adds a day.
def endOf : Option (Stamp × Bool) → Stamp
  | none => .zero
  | some (t,dateOnly) => if dateOnly then t.add day else t

structure Bounds where
  low : Stamp
  high : Stamp
  ok : Bool
  deriving DecidableEq, Repr

def DateRange.bounds (d : DateRange) : DateRange × Bounds :=
  match usable lib d.date with
  | some (t,dateOnly) => (⟨canonicalDate lib t dateOnly,"",""⟩,⟨t,t.add day,true⟩)
  | none =>
    let low := usable lib d.fromDate
    let high := usable lib d.toDate
    (⟨"",written lib low,written lib high⟩,
      ⟨(low.map Prod.fst).getD .zero,endOf high,low.isSome || high.isSome⟩)

structure QueryMeta (F : Type) where
  filter : F
  sort : Sorting
  pagination : PaginationMeta
  deriving DecidableEq, Repr

-- user.Search and audit.Search have these parts in common; `Capabilities` has
-- what they do differently.
structure Search (F : Type) where
  filter : F
  sorting : Sorting
  pagination : Pagination
  deriving DecidableEq, Repr

structure Capabilities (F : Type) where
  applyFilter : F → QueryBuilder → F × QueryBuilder
  sortFields : List (String × String)

def applyQuery (c : Capabilities F) (s : Search F) (q : QueryBuilder) : Search F × QueryBuilder :=
  let (filter,q) := c.applyFilter s.filter q
  let (sorting,q) := s.sorting.applySort lib q c.sortFields
  let (pagination,q) := s.pagination.applyPagination q
  (⟨filter,sorting,pagination⟩,q)

-- What Meta() returns after SetMeta(total).
def Search.setMeta (s : Search F) (total : Int64) : QueryMeta F :=
  ⟨s.filter,s.sorting,s.pagination.pageMeta total⟩

def Search.ofMeta (m : QueryMeta F) : Search F :=
  ⟨m.filter,m.sort,⟨m.pagination.page,m.pagination.limit⟩⟩

end RestApi.Query

namespace RestApi.User
open Query

structure Filter where
  gender : List String
  role : List String
  deriving DecidableEq, Repr

variable (lib : Library)

def parseGender (s : String) : Option Gender :=
  let g := toUpper lib (trimSpace s)
  if Gender.isValid g then some g else none

def parseRole (s : String) : Option Role :=
  let r := toLower lib (trimSpace s)
  [Role.admin,.system,.user].find? fun role => role.text = r

def sortFields : List (String × String) :=
  [("id","id"),("created_at","created_at"),("updated_at","updated_at")]

def Filter.sanitised (f : Filter) : Filter :=
  ⟨f.gender.filterMap (parseGender lib),f.role.filterMap fun v => (parseRole lib v).map Role.text⟩

def Filter.applyFilter (f : Filter) (q : QueryBuilder) : Filter × QueryBuilder :=
  let f := f.sanitised lib
  (f,(q.whereIn "gender" (f.gender.map .text)).whereIn "role" (f.role.map .text))

def capabilities : Capabilities Filter := ⟨Filter.applyFilter lib,sortFields⟩

-- userRepository.List up to the two statements it runs.
def liveUsers : QueryBuilder :=
  (select "users" ["id","name","email","email_verified_at","phone","gender","role","profile_picture",
    "created_at","updated_at"]).whereNull "deleted_at"

def list (search : Search Filter) : Search Filter × QueryBuilder :=
  applyQuery lib (capabilities lib) search liveUsers

end RestApi.User

namespace RestApi.Audit
open Query

structure Filter where
  entity : List String
  actor : String
  dateRange : DateRange
  deriving DecidableEq, Repr

variable (lib : Library)

def validEntities : List String := ["registration_token","session","user"]

def parseEntity (value : String) : Option String :=
  let name := toLower lib (trimSpace value)
  if name ∈ validEntities then some name else none

def escapeLike (value : String) : String :=
  String.ofList (value.toList.flatMap fun c =>
    if c = '\\' ∨ c = '%' ∨ c = '_' then ['\\',c] else [c])

def sortFields : List (String × String) := [("created_at","e.created_at")]

inductive ActorTerm where
  | blank
  | uuid (id : UUID)
  | name (text : String)
  deriving DecidableEq, Repr

def actorTerm (actor : String) : ActorTerm :=
  if actor = "" then .blank
  else match lib.parseUUID actor with
    | some id => .uuid id
    | none => .name actor

def whereActor (actor : String) (q : QueryBuilder) : QueryBuilder :=
  match actorTerm lib actor with
  | .blank => q
  | .uuid id => q.whereIn "e.actor_id" [.uuid id]
  | .name text => q.whereILike "u.name" (.text ("%" ++ escapeLike text ++ "%"))

def Filter.sanitised (f : Filter) : Filter :=
  ⟨f.entity.filterMap (parseEntity lib),trimSpace f.actor,(f.dateRange.bounds lib).1⟩

def Filter.applyFilter (f : Filter) (q : QueryBuilder) : Filter × QueryBuilder :=
  let entity := f.entity.filterMap (parseEntity lib)
  let q := q.whereIn "e.entity" (entity.map .text)
  let (dateRange,bounds) := f.dateRange.bounds lib
  let q := if bounds.ok then q.whereBetween "e.created_at" bounds.low bounds.high else q
  let actor := trimSpace f.actor
  (⟨entity,actor,dateRange⟩,whereActor lib actor q)

def capabilities : Capabilities Filter := ⟨Filter.applyFilter lib,sortFields⟩

-- auditRepository.List up to the two statements it runs.
def entriesWithActor : QueryBuilder :=
  (select "audit_logs AS e" ["e.id","e.action","e.entity","e.entity_id","e.prev","e.next","e.meta",
    "e.created_at","e.actor_id","u.name AS actor_name"]).leftJoin "users AS u" "e.actor_id=u.id"

def list (search : Search Filter) : Search Filter × QueryBuilder :=
  applyQuery lib (capabilities lib) search entriesWithActor

end RestApi.Audit
