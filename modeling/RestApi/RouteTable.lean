import Mathlib.Data.List.Basic

-- A table of routes in the order of their registration. Whatever matches a request
-- makes up its chain of handlers, each of which may go on to the next.
namespace RestApi.RouteTable

inductive Segment where
  | text (name : String)
  | param (name : String)
  deriving DecidableEq, Repr

-- `use` matches everything under a path, `add` the path itself.
inductive Entry (Method Handler : Type) where
  | use (path : List Segment) (handler : Handler)
  | add (method : Method) (path : List Segment) (handlers : List Handler)

abbrev Params := List (String × String)

-- How a path is matched is left open, but everything is under the root, and what
-- matches a longer path is under the shorter one.
structure Matcher (Path : Type) where
  exact : List Segment → Path → Option Params
  under : List Segment → Path → Bool
  root : ∀ path, under [] path = true
  lawful : ∀ above rest path params, exact (above ++ rest) path = some params →
    under above path = true

variable {Method Handler Path α β : Type} [DecidableEq Method]

def chain (matcher : Matcher Path) (method : Method) (path : Path) :
    List (Entry Method Handler) → List (Handler × Params)
  | [] => []
  | .use above handler :: rest =>
      if matcher.under above path then (handler,
        []) :: chain matcher method path rest else chain matcher method path rest
  | .add verb own handlers :: rest =>
      match if verb = method then matcher.exact own path else none with
      | some params => handlers.map (·,params) ++ chain matcher method path rest
      | none => chain matcher method path rest

theorem chain_append (matcher : Matcher Path) (method : Method) (path : Path)
    (first second : List (Entry Method Handler)) :
    chain matcher method path (first ++ second) = chain matcher method path first ++
      chain matcher method path second := by
  induction first with
  | nil => rfl
  | cons entry rest ih =>
      cases entry with
      | use above handler =>
          simp only [List.cons_append,chain,ih]
          split
          · rfl
          · rfl
      | add verb own handlers =>
          simp only [List.cons_append,chain,ih]
          split
          · rw [List.append_assoc]
          · rfl

-- A handler that is registered last for everything is in every chain.
theorem chain_last (matcher : Matcher Path) (method : Method) (path : Path)
    (table : List (Entry Method Handler)) (handler : Handler) :
    (handler,[]) ∈ chain matcher method path (table ++ [.use [] handler]) := by
  rw [chain_append,chain,if_pos (matcher.root path)]
  exact List.mem_append_right _ (List.mem_singleton.mpr rfl)

-- Runs a chain; a handler gets what comes after it.
def run (handle : Handler → Params → (α → β) → α → β) (last : α → β) :
    List (Handler × Params) → α → β
  | [] => last
  | (handler,params) :: rest => handle handler params (run handle last rest)

-- Whatever needs a guard has one before it.
def guarded (guard needs : Handler → Bool) : Bool → List Handler → Bool
  | _,[] => true
  | passed,handler :: rest =>
      (passed || !needs handler) && guarded guard needs (passed || guard handler) rest

-- The same of a table, by the paths under which there is a guard already.
def tableGuarded (guard needs : Handler → Bool) :
    List (List Segment) → List (Entry Method Handler) → Bool
  | _,[] => true
  | seen,.use path handler :: rest =>
      !needs handler && tableGuarded guard needs (if guard handler then path :: seen else seen) rest
  | seen,.add _ path handlers :: rest =>
      guarded guard needs (seen.any (·.isPrefixOf path)) handlers &&
        tableGuarded guard needs seen rest

section Guards
variable {guard needs : Handler → Bool}

theorem guarded_mono {handlers : List Handler} (safe : guarded guard needs early handlers = true)
    (weaker : early = true → late = true) : guarded guard needs late handlers = true := by
  induction handlers generalizing early late with
  | nil => rfl
  | cons handler rest ih =>
      simp only [guarded,Bool.and_eq_true,Bool.or_eq_true] at safe ⊢
      refine ⟨safe.1.imp_left weaker,ih safe.2 fun passed => ?_⟩
      simp only [Bool.or_eq_true] at passed ⊢
      exact passed.imp_left weaker

theorem guarded_append {first second : List Handler}
    (safe : guarded guard needs passed first = true)
    (after : guarded guard needs passed second = true) :
    guarded guard needs passed (first ++ second) = true := by
  induction first generalizing passed with
  | nil => exact after
  | cons handler rest ih =>
      simp only [List.cons_append,guarded,Bool.and_eq_true] at safe ⊢
      refine ⟨safe.1,ih safe.2 (guarded_mono after fun early => ?_)⟩
      rw [early,Bool.true_or]

-- A table that passes the check keeps its promise for every request, whichever way
-- paths are matched.
theorem table_guarded (matcher : Matcher Path) (method : Method) (path : Path)
    {table : List (Entry Method Handler)} {seen : List (List Segment)}
    (passes : tableGuarded guard needs seen table = true)
    (known : ∀ above ∈ seen, matcher.under above path = true → passed = true) :
    guarded guard needs passed ((chain matcher method path table).map Prod.fst) = true := by
  induction table generalizing seen passed with
  | nil => rfl
  | cons entry rest ih =>
      cases entry with
      | use above handler =>
          simp only [tableGuarded,Bool.and_eq_true,Bool.not_eq_true'] at passes
          simp only [chain]
          split
          · rename_i here
            simp only [List.map_cons,guarded,passes.1,Bool.not_false,Bool.or_true,Bool.true_and]
            refine ih passes.2 fun other member under => ?_
            split at member
            · rename_i guards
              rw [guards,Bool.or_true]
            · rw [known other member under,Bool.true_or]
          · rename_i elsewhere
            refine ih passes.2 fun other member under => ?_
            split at member
            · rcases List.mem_cons.mp member with rfl | old
              · exact absurd under elsewhere
              · exact known other old under
            · exact known other member under
      | add verb own handlers =>
          simp only [tableGuarded,Bool.and_eq_true] at passes
          simp only [chain]
          split
          · rename_i params here
            rw [List.map_append,List.map_map,
              show Prod.fst ∘ (fun handler : Handler => (handler,params)) = id from rfl,List.map_id]
            refine guarded_append (guarded_mono passes.1 fun covered => ?_) (ih passes.2 known)
            obtain ⟨above,member,before⟩ := List.any_eq_true.mp covered
            obtain ⟨tail,rfl⟩ := List.isPrefixOf_iff_prefix.mp before
            refine known above member (matcher.lawful above tail path params ?_)
            split at here
            · exact here
            · cases here
          · exact ih passes.2 known

end Guards
end RestApi.RouteTable
