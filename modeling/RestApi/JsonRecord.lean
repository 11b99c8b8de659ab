import RestApi.JsonText

-- Objects as encoding/json stores them into the fields of a struct.
namespace RestApi.JsonRecord
open JsonText

-- A value of the wrong type is skipped and the first such error reported at the
-- end; an error of a type that decodes itself ends the decoding.
inductive Stored where
  | fine
  | skipped (error : String)
  | aborted (error : String)
  deriving DecidableEq, Repr

def Stored.error : Stored → Option String
  | .fine => none
  | .skipped error => some error
  | .aborted error => some error

structure Slot (T : Type) where
  name : String
  store : T → Json → T × Stored

-- Simple case folding, as far as it reaches an ASCII name.
def foldChar (c : Char) : Char :=
  if 'A' ≤ c ∧ c ≤ 'Z' then Char.ofNat (c.toNat+32)
  else if c = '\u017f' then 's'
  else if c = '\u212a' then 'k'
  else c

def foldName (name : String) : List Char := name.toList.map foldChar

variable {T A : Type}

-- The exact name goes first.
def target (fields : List (Slot T)) (key : String) : Option (Slot T) :=
  (fields.find? fun field => field.name = key) <|> fields.find? fun field =>
    foldName field.name = foldName key

def storeMembers (fields : List (Slot T)) : T × Stored → List (String × Json) → T × Stored
  | sofar,[] => sofar
  | sofar,(key,item) :: rest => match target fields key with
      | none => storeMembers fields sofar rest
      | some field => match field.store sofar.1 item with
          | (value,.fine) => storeMembers fields (value,sofar.2) rest
          | (value,.skipped error) =>
              storeMembers fields (value,if sofar.2 = .fine then .skipped error else sofar.2) rest
          | (value,.aborted error) => (value,.aborted error)

def describe : Json → String
  | .null => "null"
  | .bool _ => "bool"
  | .number _ => "number"
  | .string _ => "string"
  | .array _ => "array"
  | .object _ => "object"

-- The stores of the kinds of fields there are. Null leaves a field as it is.
section Stores
variable (mismatch : String → String)

def storeString (set : String → T → T) (value : T) : Json → T × Stored
  | .null => (value,.fine)
  | .string text => (set text value,.fine)
  | item => (value,.skipped (mismatch (describe item)))

-- `set` refuses what does not fit the type of the field.
def storeNumber (set : String → T → Option T) (value : T) : Json → T × Stored
  | .null => (value,.fine)
  | .number text => match set (String.ofList text.val) value with
      | some stored => (stored,.fine)
      | none => (value,.skipped (mismatch ("number " ++ String.ofList text.val)))
  | item => (value,.skipped (mismatch (describe item)))

def storeRecord (fields : List (Slot A)) (get : T → A) (set : A → T → T)
    (value : T) : Json → T × Stored
  | .null => (value,.fine)
  | .object members =>
      ((set (storeMembers fields (get value,.fine) members).1 value),
        (storeMembers fields (get value,.fine) members).2)
  | item => (value,.skipped (mismatch (describe item)))

end Stores

def known (fields : List (Slot T)) (member : String × Json) : Bool :=
  (target fields member.1).isSome

-- Members that no field is named after make no difference.
theorem storeMembers_known (fields : List (Slot T)) (sofar : T × Stored)
    (members : List (String × Json)) :
    storeMembers fields sofar (members.filter (known fields)) =
      storeMembers fields sofar members := by
  induction members generalizing sofar with
  | nil => rfl
  | cons member rest ih =>
      obtain ⟨key,item⟩ := member
      cases found : target fields key with
      | none =>
          rw [List.filter_cons_of_neg (by simp [known,found]),ih,storeMembers,found]
      | some field =>
          rw [List.filter_cons_of_pos (by simp [known,found]),storeMembers,storeMembers,found]
          dsimp only
          split
          · exact ih _
          · exact ih _
          · rfl

-- One member after the other, when nothing goes wrong.
theorem storeMembers_fine {fields : List (Slot T)} {field : Slot T} {value stored : T}
    (found : target fields key = some field) (fine : field.store value item = (stored,.fine))
    (rest : List (String × Json)) :
    storeMembers fields (value,.fine) ((key,item) :: rest) = storeMembers fields
      (stored,.fine) rest := by
  rw [storeMembers,found]
  dsimp only
  rw [fine]

end RestApi.JsonRecord
