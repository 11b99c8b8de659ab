import Mathlib.Data.List.Infix

-- Patterns over any alphabet with three special characters: one that stands for
-- any sequence, one for any single character, and one that escapes the next.
namespace RestApi.LikePattern

structure Specials (α : Type) where
  escape : α
  any : α
  one : α
  distinct : escape ≠ any ∧ escape ≠ one ∧ any ≠ one

inductive Token (α : Type) where
  | any
  | one
  | literal (c : α)
  deriving DecidableEq, Repr

variable {α : Type} [DecidableEq α] (sp : Specials α)

-- A pattern that ends in an escape of nothing has no meaning.
def tokens : List α → Option (List (Token α))
  | [] => some []
  | c :: rest =>
    if c = sp.escape then match rest with
      | [] => none
      | d :: rest => (tokens rest).map (.literal d :: ·)
    else if c = sp.any then (tokens rest).map (.any :: ·)
    else if c = sp.one then (tokens rest).map (.one :: ·)
    else (tokens rest).map (.literal c :: ·)

-- `any` tries every rest of the text.
def accepts : List (Token α) → List α → Bool
  | [],text => text.isEmpty
  | .any :: rest,text => text.tails.any (accepts rest)
  | .one :: rest,text => match text with
      | [] => false
      | _ :: text => accepts rest text
  | .literal c :: rest,text => match text with
      | [] => false
      | d :: text => c = d && accepts rest text

def like (text pattern : List α) : Bool := ((tokens sp pattern).map (accepts · text)).getD false

def special (c : α) : Prop := c = sp.escape ∨ c = sp.any ∨ c = sp.one
instance (c : α) : Decidable (special sp c) := inferInstanceAs (Decidable (_ ∨ _ ∨ _))

def escaped (text : List α) : List α :=
  text.flatMap fun c => if special sp c then [sp.escape,c] else [c]

-- The pattern that looks for a text anywhere.
def containing (text : List α) : List α := sp.any :: escaped sp text ++ [sp.any]

-- A per-character folding that leaves the special characters alone.
structure Folds (fold : α → α) : Prop where
  fixes : ∀ c, special sp c → fold c = c
  keeps : ∀ c, special sp (fold c) → special sp c

variable {sp}

theorem tokens_escaped (text rest : List α) : tokens sp (escaped sp text ++ rest) =
    (tokens sp rest).map (text.map Token.literal ++ ·) := by
  induction text with
  | nil => simp [escaped]
  | cons c others ih =>
      have later : escaped sp (c :: others) ++ rest =
          (if special sp c then [sp.escape,c] else [c]) ++ (escaped sp others ++ rest) := by
        simp [escaped]
      rw [later]
      split
      · rw [List.cons_append,List.cons_append,List.nil_append,tokens,if_pos rfl,ih,Option.map_map]
        rfl
      · rename_i plain
        simp only [special,not_or] at plain
        rw [List.cons_append,List.nil_append,tokens.eq_def]
        dsimp only
        rw [if_neg plain.1,if_neg plain.2.1,if_neg plain.2.2,ih,Option.map_map]
        rfl

theorem tokens_any (rest : List α) :
    tokens sp (sp.any :: rest) = (tokens sp rest).map (.any :: ·) := by
  rw [tokens.eq_def]
  dsimp only
  rw [if_neg (Ne.symm sp.distinct.1),if_pos rfl]

-- Escaping leaves nothing dangling.
theorem tokens_containing (text : List α) :
    tokens sp (containing sp text) = some (.any :: (text.map Token.literal ++ [.any])) := by
  rw [containing,List.cons_append,tokens_any,tokens_escaped,tokens_any]
  rfl

theorem accepts_any (text : List α) : accepts [Token.any] text = true := by
  rw [accepts,List.any_eq_true]
  exact ⟨[],(List.mem_tails _ _).mpr List.nil_suffix,rfl⟩

theorem accepts_literals (word : List α) (text : List α) (rest : List (Token α)) :
    accepts (word.map Token.literal ++ rest) text = true ↔ ∃ after, text = word ++ after ∧
      accepts rest after = true := by
  induction word generalizing text with
  | nil => simp
  | cons c others ih =>
      cases text with
      | nil => simp [accepts]
      | cons d text =>
          rw [List.map_cons,List.cons_append,accepts,Bool.and_eq_true,decide_eq_true_eq,ih]
          constructor
          · rintro ⟨rfl,after,rfl,passes⟩
            exact ⟨after,rfl,passes⟩
          · rintro ⟨after,same,passes⟩
            rw [List.cons_append,List.cons.injEq] at same
            exact ⟨same.1.symm,after,same.2,passes⟩

-- The pattern matches exactly the texts that have the word in them.
theorem like_containing (text word : List α) :
    like sp text (containing sp word) = true ↔ word <:+: text := by
  rw [like,tokens_containing,Option.map_some,Option.getD_some,accepts,List.any_eq_true]
  constructor
  · rintro ⟨rest,suffix,passes⟩
    obtain ⟨after,rfl,_⟩ := (accepts_literals word rest [.any]).mp passes
    obtain ⟨before,rfl⟩ := (List.mem_tails _ _).mp suffix
    exact ⟨before,after,by simp⟩
  · rintro ⟨before,after,rfl⟩
    refine ⟨word ++ after,(List.mem_tails _ _).mpr ⟨before,by simp⟩,?_⟩
    exact (accepts_literals word _ _).mpr ⟨after,rfl,accepts_any after⟩

omit [DecidableEq α] in
theorem folds_special {fold : α → α} (folds : Folds sp fold) (c : α) :
    special sp (fold c) ↔ special sp c := by
  constructor
  · exact folds.keeps c
  · intro held
    rw [folds.fixes c held]
    exact held

-- Folding a pattern is making the pattern of the folded word.
theorem containing_map {fold : α → α} (folds : Folds sp fold) (word : List α) :
    (containing sp word).map fold = containing sp (word.map fold) := by
  have each : ∀ c, (if special sp c then [sp.escape,c] else [c]).map fold =
      if special sp (fold c) then [sp.escape,fold c] else [fold c] := by
    intro c
    simp only [folds_special folds c]
    split
    · simp [folds.fixes sp.escape (.inl rfl)]
    · rfl
  have words : (escaped sp word).map fold = escaped sp (word.map fold) := by
    rw [escaped,escaped,List.map_flatMap,List.flatMap_map]
    exact congrArg (word.flatMap ·) (funext each)
  rw [containing,containing,List.map_append,List.map_cons,words,
    folds.fixes sp.any (.inr (.inl rfl))]
  rw [List.map_singleton,folds.fixes sp.any (.inr (.inl rfl))]

end RestApi.LikePattern
