import RestApi.Search

namespace RestApi
namespace Validator

-- The tags the request inputs use.
inductive Tag where
  | required
  | omitempty
  | email
  | min (count : Nat)
  | max (count : Nat)
  | oneof (options : List String)
  deriving DecidableEq, Repr

def Tag.name : Tag → String
  | .required => "required"
  | .omitempty => "omitempty"
  | .email => "email"
  | .min _ => "min"
  | .max _ => "max"
  | .oneof _ => "oneof"

-- A field under its JSON name.
structure Field where
  name : String
  value : String
  tags : List Tag
  deriving DecidableEq, Repr

structure FieldError where
  field : String
  tag : String
  message : String
  value : String
  deriving DecidableEq, Repr

structure ValidationError where
  errors : List FieldError
  details : List (String × List String)
  deriving DecidableEq, Repr

def buildErrorMessage : Tag → String
  | .required => "this field is required"
  | .omitempty => "validation failed on 'omitempty' tag"
  | .email => "must be a valid email address"
  | .min count => "must be at least " ++ toString count ++ " characters long"
  | .max count => "must be at most " ++ toString count ++ " characters long"
  | .oneof options => "must be one of: " ++ " ".intercalate options

-- A Go map from fields to their messages.
def addDetail (field message : String) : List (String × List String) → List (String × List String)
  | [] => [(field,[message])]
  | entry :: rest =>
      if entry.1 = field then (entry.1,entry.2 ++ [message]) :: rest
      else entry :: addDetail field message rest

def convertError (errs : List FieldError) : ValidationError where
  errors := errs
  details := errs.foldl (fun details e => addDetail e.field e.message details) []

-- The library's own test for an address.
variable (isEmail : String → Bool)

-- Lengths are counted in code points.
def Tag.passes (value : String) : Tag → Bool
  | .required => value ≠ ""
  | .omitempty => true
  | .email => isEmail value
  | .min count => count ≤ value.length
  | .max count => value.length ≤ count
  | .oneof options => value ∈ options

-- A field reports the first of its tags that fails.
def Field.check (f : Field) : List Tag → Option FieldError
  | [] => none
  | tag :: rest =>
      if tag = .omitempty ∧ f.value = "" then none
      else if tag.passes isEmail f.value then Field.check f rest
      else some ⟨f.name,tag.name,buildErrorMessage tag,f.value⟩

def struct (fields : List Field) : Except ValidationError Unit :=
  match fields.filterMap fun f => f.check isEmail f.tags with
  | [] => .ok ()
  | errs => .error (convertError errs)

-- Sanitize first, where an input has it; the caller goes on with what is left.
def validate (sanitize : α → α) (fields : α → List Field) (input : α) : Except ValidationError α :=
  match struct isEmail (fields (sanitize input)) with
  | .ok _ => .ok (sanitize input)
  | .error err => .error err

variable {isEmail} {f : Field} {fields : List Field} {err : ValidationError}

theorem check_passes {tags : List Tag} (strict : .omitempty ∉ tags) :
    f.check isEmail tags = none ↔ ∀ tag ∈ tags, tag.passes isEmail f.value = true := by
  induction tags with
  | nil => simp [Field.check]
  | cons tag rest ih =>
      have other : tag ≠ .omitempty := fun same => strict (same ▸ List.mem_cons_self)
      have tail := ih fun member => strict (List.mem_cons_of_mem tag member)
      simp only [Field.check,other,false_and,if_false,List.forall_mem_cons]
      split
      · simp [*]
      · simp [*]

theorem struct_ok :
    struct isEmail fields = .ok () ↔ ∀ f ∈ fields, f.check isEmail f.tags = none := by
  rw [struct,← List.filterMap_eq_nil_iff]
  split
  · simp [*]
  · rename_i errs reported
    exact ⟨nofun,fun none => absurd none reported⟩

theorem validate_ok {sanitize : α → α} {fields : α → List Field} {input accepted : α}
    (passed : validate isEmail sanitize fields input = .ok accepted) :
    accepted = sanitize input ∧ ∀ f ∈ fields accepted, f.check isEmail f.tags = none := by
  unfold validate at passed
  split at passed
  · cases passed
    exact ⟨rfl,struct_ok.mp (by assumption)⟩
  · cases passed

end Validator

open Validator

structure RegisterInput where
  name : String
  email : String
  deriving DecidableEq, Repr

structure CompleteRegistrationInput where
  token : String
  password : String
  deriving DecidableEq, Repr

structure ResetPasswordInput where
  token : String
  newPassword : String
  deriving DecidableEq, Repr

structure ChangePasswordInput where
  password : String
  newPassword : String
  deriving DecidableEq, Repr

structure UpdateUserInput where
  name : String
  phone : String
  gender : String
  deriving DecidableEq, Repr

section Fields

def RegisterInput.fields (i : RegisterInput) : List Field :=
  [⟨"name",i.name,[.required,.min 3]⟩,⟨"email",i.email,[.required,.email]⟩]

-- The tags of a password that is to be stored.
def passwordTags : List Tag := [.required,.min 8,.max 72]

def CompleteRegistrationInput.fields (i : CompleteRegistrationInput) : List Field :=
  [⟨"token",i.token,[.required]⟩,⟨"password",i.password,passwordTags⟩]

def ResetPasswordInput.fields (i : ResetPasswordInput) : List Field :=
  [⟨"token",i.token,[.required]⟩,⟨"new_password",i.newPassword,passwordTags⟩]

def ChangePasswordInput.fields (i : ChangePasswordInput) : List Field :=
  [⟨"password",i.password,[.required]⟩,⟨"new_password",i.newPassword,passwordTags⟩]

def UpdateUserInput.fields (i : UpdateUserInput) : List Field :=
  [⟨"name",i.name,[.required]⟩,⟨"phone",i.phone,[]⟩,
    ⟨"gender",i.gender,[.omitempty,.oneof ["m","M","f","F","o","O"]]⟩]

end Fields

section Sanitizing

-- strings.Fields
def textFields (s : String) : List String :=
  ((s.toList.splitOnP Query.isSpace).filter (· ≠ [])).map String.ofList

def trimSpacesConcat (s : String) : String := " ".intercalate (textFields s)

def UpdateUserInput.sanitize (i : UpdateUserInput) : UpdateUserInput :=
  ⟨trimSpacesConcat i.name,Query.trimSpace i.phone,Query.trimSpace i.gender⟩

end Sanitizing

section Validation
variable (isEmail : String → Bool)

def RegisterInput.validate : RegisterInput → Except ValidationError RegisterInput :=
  Validator.validate isEmail id fields
def CompleteRegistrationInput.validate :
    CompleteRegistrationInput → Except ValidationError CompleteRegistrationInput :=
  Validator.validate isEmail id fields
def ResetPasswordInput.validate : ResetPasswordInput → Except ValidationError ResetPasswordInput :=
  Validator.validate isEmail id fields
def ChangePasswordInput.validate :
    ChangePasswordInput → Except ValidationError ChangePasswordInput :=
  Validator.validate isEmail id fields
def UpdateUserInput.validate : UpdateUserInput → Except ValidationError UpdateUserInput :=
  Validator.validate isEmail sanitize fields

-- The same three rules for a new password in every form that takes one.
def PasswordAccepted (p : String) : Prop := 8 ≤ p.length ∧ p.length ≤ 72

instance (p : String) : Decidable (PasswordAccepted p) := inferInstanceAs (Decidable (_ ∧ _))

theorem passwordTags_pass (name p : String) :
    (Validator.Field.mk name p passwordTags).check isEmail passwordTags = none ↔
      PasswordAccepted p := by
  rw [check_passes (by decide)]
  simp only [passwordTags,List.forall_mem_cons,Tag.passes,decide_eq_true_eq,PasswordAccepted]
  refine ⟨fun ⟨_,enough,most,_⟩ => ⟨enough,most⟩,fun ⟨enough,most⟩ => ⟨?_,enough,most,nofun⟩⟩
  rintro rfl
  cases enough

end Validation
end RestApi
