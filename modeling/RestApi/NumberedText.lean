import Mathlib.Data.List.TakeWhile

-- Text with numbers in it, each after a mark: "$1", "#12".
namespace RestApi.NumberedText

variable {mark : Char} {text rest : List Char}

-- The digits behind each mark, in the order of the text.
def numbers (mark : Char) : List Char → List (List Char)
  | [] => []
  | c :: rest =>
      if c = mark then rest.takeWhile Char.isDigit :: numbers mark rest else numbers mark rest

-- Text that does not go on with a number before it.
def Breaks (text : List Char) : Prop := ∀ c ∈ text.head?, c.isDigit = false

theorem breaks_cons {c : Char} (odd : c.isDigit = false)
    (rest : List Char) : Breaks (c :: rest) := by
  intro d first
  cases first
  exact odd

instance : Decidable (Breaks text) := match text with
  | [] => .isTrue fun _ first => (nomatch first)
  | c :: rest =>
      decidable_of_iff (c.isDigit = false) ⟨fun odd => breaks_cons odd rest,
        fun breaks => breaks c rfl⟩

theorem numbers_unmarked (unmarked : mark ∉ text) (rest : List Char) :
    numbers mark (text ++ rest) = numbers mark rest := by
  induction text with
  | nil => rfl
  | cons c others ih =>
      have different : c ≠ mark := fun same => unmarked (same ▸ List.mem_cons_self)
      rw [List.cons_append,numbers,if_neg different]
      exact ih fun member => unmarked (List.mem_cons_of_mem _ member)

theorem numbers_none (unmarked : mark ∉ text) : numbers mark text = [] := by
  have empty := numbers_unmarked unmarked []
  rwa [List.append_nil] at empty

theorem takeWhile_breaks (breaks : Breaks rest) (text : List Char) :
    (text ++ rest).takeWhile Char.isDigit = text.takeWhile Char.isDigit := by
  induction text with
  | nil =>
      cases rest with
      | nil => rfl
      | cons c others =>
          have odd := breaks c rfl
          simp [odd]
  | cons c others ih =>
      rw [List.cons_append,List.takeWhile_cons,List.takeWhile_cons,ih]

theorem numbers_append (breaks : Breaks rest) (text : List Char) :
    numbers mark (text ++ rest) = numbers mark text ++ numbers mark rest := by
  induction text with
  | nil => rfl
  | cons c others ih =>
      rw [List.cons_append,numbers,numbers]
      split
      · rw [ih,takeWhile_breaks breaks,List.cons_append]
      · exact ih

theorem digits_unmarked (odd : mark.isDigit = false) (n : Nat) : mark ∉ Nat.toDigits 10 n := by
  intro member
  have digit := Nat.isDigit_of_mem_toDigits (by decide) (by decide) member
  rw [odd] at digit
  cases digit

theorem numbers_mark (odd : mark.isDigit = false) (n : Nat) :
    numbers mark (mark :: Nat.toDigits 10 n) = [Nat.toDigits 10 n] := by
  have whole : (Nat.toDigits 10 n).takeWhile Char.isDigit = Nat.toDigits 10 n := by
    rw [List.takeWhile_eq_self_iff]
    exact fun c member => Nat.isDigit_of_mem_toDigits (by decide) (by decide) member
  rw [numbers,if_pos rfl,whole,numbers_none (digits_unmarked odd n)]

theorem breaks_append (breaks : Breaks text) (filled : text ≠ [])
    (rest : List Char) : Breaks (text ++ rest) := by
  cases text with
  | nil => exact absurd rfl filled
  | cons c others => exact breaks_cons (breaks c rfl) (others ++ rest)

-- Pieces joined by a separator that neither has nor continues a number.
theorem numbers_intercalate {sep : List Char} (unmarked : mark ∉ sep) (breaks : Breaks sep)
    (filled : sep ≠ []) (pieces : List (List Char)) :
    numbers mark (sep.intercalate pieces) = pieces.flatMap (numbers mark) := by
  induction pieces with
  | nil => rfl
  | cons piece others ih =>
      cases others with
      | nil => simp
      | cons next others =>
          rw [List.intercalate_cons_cons,List.append_assoc,
            numbers_append (breaks_append breaks filled _),numbers_unmarked unmarked,ih]
          rfl

end RestApi.NumberedText
