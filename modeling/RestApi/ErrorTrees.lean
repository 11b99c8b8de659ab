import Mathlib.Data.List.Basic

-- Go errors: a cause, an error that wraps another (%w), or one that wraps two.
namespace RestApi

inductive ErrorTree (Cause : Type) where
  | leaf (cause : Cause)
  | wrap (text : String) (inner : ErrorTree Cause)
  | join (text : String) (first second : ErrorTree Cause)
  deriving DecidableEq, Repr

namespace ErrorTree
variable {Cause α : Type} {tree : ErrorTree Cause} {pick : Cause → Option α}

-- errors.As and errors.Is: the first cause that fits, depth first.
def find (pick : Cause → Option α) : ErrorTree Cause → Option α
  | .leaf cause => pick cause
  | .wrap _ inner => inner.find pick
  | .join _ first second => match first.find pick with
      | some found => some found
      | none => second.find pick

def causes : ErrorTree Cause → List Cause
  | .leaf cause => [cause]
  | .wrap _ inner => inner.causes
  | .join _ first second => first.causes ++ second.causes

theorem find_some (found : tree.find pick = some a) :
    ∃ cause ∈ tree.causes, pick cause = some a := by
  induction tree with
  | leaf cause => exact ⟨cause,List.mem_singleton_self cause,found⟩
  | wrap text inner ih => exact ih found
  | join text first second left right =>
      simp only [find] at found
      split at found
      · rename_i same
        obtain ⟨cause,member,picked⟩ := left (same.trans found)
        exact ⟨cause,List.mem_append_left _ member,picked⟩
      · obtain ⟨cause,member,picked⟩ := right found
        exact ⟨cause,List.mem_append_right _ member,picked⟩

theorem find_none (absent : ∀ cause ∈ tree.causes, pick cause = none) : tree.find pick = none := by
  cases found : tree.find pick with
  | none => rfl
  | some a =>
      obtain ⟨cause,member,picked⟩ := find_some found
      exact absurd (absent cause member) (picked ▸ Option.some_ne_none a)

end ErrorTree
end RestApi
