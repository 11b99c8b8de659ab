import RestApi.Domain

namespace RestApi

structure Nullable (T : Type) where
  val : T
  valid : Bool
  deriving DecidableEq, Repr

namespace Nullable

-- A decoder into a variable: what it refuses before it writes, what it writes, and
-- the error it still finds after that.
structure Decoder (T Src : Type) where
  check : Src → Option String
  write : T → Src → T
  recheck : T → Src → Option String

def Decoder.decode {T Src : Type} (d : Decoder T Src) (held : T) (src : Src) : T × Option String :=
  match d.check src with
  | some err => (held,some err)
  | none => (d.write held src,d.recheck (d.write held src) src)

-- What a Nullable uses of its type. `isZero` is the comparison with the zero
-- value; `unmarshal` is json.Unmarshal, which checks the syntax of the whole text
-- before it writes and goes on after a value of the wrong type, to report it in the
-- end. A type with a Scan of its own is a `scanner`.
structure Kind (T Src : Type) where
  zero : T
  isZero : T → Bool
  typeName : String
  typeOf : Src → String
  assert : Src → Option T
  asString : Src → Option String
  unmarshal : Decoder T String
  scanner : Option (Decoder T Src)

variable {T Src : Type} (k : Kind T Src)

def new (value : T) (allowZero : Bool) : Nullable T :=
  if k.isZero value then ⟨k.zero,allowZero⟩ else ⟨value,true⟩

def notNull (n : Nullable T) : Bool := n.valid
def get (n : Nullable T) : T := n.val

def set (value : T) (allowZero : Bool) : Nullable T :=
  if k.isZero value then ⟨k.zero,allowZero⟩ else ⟨value,true⟩

-- What a decoder has left in the held value, with its error.
def decoded (n : Nullable T) : T × Option String → Nullable T × Option String
  | (left,some err) => ({n with val := left},some err)
  | (left,none) => (⟨left,true⟩,none)

def scan (n : Nullable T) : Option Src → Nullable T × Option String
  | none => (⟨k.zero,false⟩,none)
  | some value => match k.scanner with
      | some scanner => n.decoded (scanner.decode n.val value)
      | none => match k.assert value with
          | some v => (⟨v,true⟩,none)
          | none => match k.asString value with
              | some text => n.decoded (k.unmarshal.decode n.val text)
              | none => (n,some ("cannot convert " ++ k.typeOf value ++ " to " ++ k.typeName))

-- Decodes into a variable of its own; null only clears the flag.
def unmarshalJSON (n : Nullable T) (data : String) : Nullable T × Option String :=
  if data = "null" then ({n with valid := false},none)
  else match k.unmarshal.decode k.zero data with
    | (_,some err) => (n,some err)
    | (v,none) => (⟨v,true⟩,none)

inductive Op (T Src : Type) where
  | new (value : T) (allowZero : Bool)
  | set (value : T) (allowZero : Bool)
  | scan (value : Option Src)
  | unmarshalJSON (data : String)

def apply (n : Nullable T) : Op T Src → Nullable T × Option String
  | .new value allowZero => (new k value allowZero,none)
  | .set value allowZero => (set k value allowZero,none)
  | .scan value => n.scan k value
  | .unmarshalJSON data => n.unmarshalJSON k data

-- A variable before its first operation.
def fresh : Nullable T := ⟨k.zero,false⟩

-- The operations one after another, errors and all: each is as P says in the state
-- it is made in.
def Along (P : Nullable T → Op T Src → Prop) : Nullable T → List (Op T Src) → Prop
  | _,[] => True
  | n,op :: rest => P n op ∧ Along P (n.apply k op).1 rest

-- A null holds the zero value.
def Zeroed (n : Nullable T) : Prop := n.notNull = false → n.get = k.zero

-- The invariant holds after the operation, and an error means that nothing changed.
def Keeps (n : Nullable T) (op : Op T Src) : Prop :=
  Zeroed k (n.apply k op).1 ∧
    ((n.apply k op).2 ≠ none → (n.apply k op).1.notNull = n.notNull ∧ (n.apply k op).1.get = n.get)

-- JSON null comes to a value that is zero anyway.
def SparesNull (n : Nullable T) (op : Op T Src) : Prop :=
  op = .unmarshalJSON "null" → n.val = k.zero

-- A decoder that writes nothing before it fails.
def Decoder.Careful (d : Decoder T Src) : Prop :=
  ∀ held src, d.check src = none → d.recheck (d.write held src) src = none

-- The decoder that a Scan of such a type points at the held value is careful.
def Kind.Careful : Prop :=
  (∀ scanner ∈ k.scanner, scanner.Careful) ∧ (k.scanner = none → k.unmarshal.Careful)

variable {k} {n : Nullable T}

theorem new_zeroed (value : T) (allowZero : Bool) : Zeroed k (new k value allowZero) := by
  unfold new
  split
  · exact fun _ => rfl
  · exact nofun

theorem valid_keeps {op : Op T Src} (valid : (n.apply k op).1.valid = true)
    (fine : (n.apply k op).2 = none) : Keeps k n op :=
  ⟨fun null => absurd (valid.symm.trans null) nofun,fun failed => absurd fine failed⟩

theorem same_keeps {op : Op T Src} (zeroed : Zeroed k n)
    (same : (n.apply k op).1 = n) : Keeps k n op := by
  unfold Keeps
  rw [same]
  exact ⟨zeroed,fun _ => ⟨rfl,rfl⟩⟩

-- A decoder without error makes the value valid; one that fails leaves behind what it has
-- written.
theorem decoded_keeps (d : Decoder T α) (src : α) (zeroed : Zeroed k n) {op : Op T Src}
    (ran : n.apply k op = n.decoded (d.decode n.val src)) :
    Keeps k n op ↔ d.check src = none → d.recheck (d.write n.val src) src ≠ none →
      d.write n.val src = n.val := by
  unfold Decoder.decode at ran
  cases checked : d.check src with
  | some err =>
      simp only [checked,decoded] at ran
      exact ⟨fun _ => nofun,fun _ => same_keeps zeroed (congrArg Prod.fst ran)⟩
  | none =>
      simp only [checked] at ran
      cases late : d.recheck (d.write n.val src) src with
      | none =>
          simp only [late,decoded] at ran
          exact ⟨fun _ _ failed => absurd rfl failed,
            fun _ => valid_keeps (congrArg (·.1.valid) ran) (congrArg Prod.snd ran)⟩
      | some err =>
          simp only [late,decoded] at ran
          constructor
          · intro kept _ _
            have unchanged := (kept.2 (by rw [ran]; exact nofun)).2
            rw [ran] at unchanged
            exact unchanged
          · intro unchanged
            apply same_keeps zeroed
            rw [ran,unchanged rfl nofun]

theorem unmarshalJSON_keeps (zeroed : Zeroed k n) (data : String) :
    Keeps k n (.unmarshalJSON data) ↔ SparesNull k n (.unmarshalJSON data) := by
  by_cases null : data = "null"
  · subst null
    constructor
    · exact fun kept _ => kept.1 rfl
    · exact fun spares => ⟨fun _ => spares rfl,fun failed => absurd rfl failed⟩
  · refine ⟨fun _ same => absurd (Op.unmarshalJSON.inj same) null,fun _ => ?_⟩
    cases result : k.unmarshal.decode k.zero data with
    | mk v err =>
        cases err with
        | some err =>
            apply same_keeps zeroed
            simp [apply,unmarshalJSON,null,result]
        | none =>
            exact valid_keeps (by simp [apply,unmarshalJSON,null,result])
              (by simp [apply,unmarshalJSON,null,result])

theorem careful_scan (careful : k.Careful) (zeroed : Zeroed k n) (value : Src) :
    Keeps k n (.scan (some value)) := by
  cases own : k.scanner with
  | some scanner =>
      rw [decoded_keeps scanner value zeroed (by simp [apply,scan,own])]
      exact fun checked failed => absurd (careful.1 scanner own _ _ checked) failed
  | none =>
      cases asserted : k.assert value with
      | some v =>
          exact valid_keeps (by simp [apply,scan,own,asserted]) (by simp [apply,scan,own,asserted])
      | none =>
          cases text : k.asString value with
          | none => exact same_keeps zeroed (by simp [apply,scan,own,asserted,text])
          | some text' =>
              rw [decoded_keeps k.unmarshal text' zeroed (by simp [apply,scan,own,asserted,text])]
              exact fun checked failed => absurd (careful.2 own _ _ checked) failed

-- The operations other than a Scan of something are the same for every type.
theorem keeps_iff {P : Src → Prop} (zeroed : Zeroed k n)
    (scans : ∀ value, Keeps k n (.scan (some value)) ↔ P value) (op : Op T Src) :
    Keeps k n op ↔ SparesNull k n op ∧ ∀ value, op = .scan (some value) → P value := by
  cases op with
  | new value allowZero =>
      simpa [SparesNull] using ⟨new_zeroed value allowZero,fun failed => absurd rfl failed⟩
  | set value allowZero =>
      simpa [SparesNull] using ⟨new_zeroed value allowZero,fun failed => absurd rfl failed⟩
  | unmarshalJSON data => simp [unmarshalJSON_keeps zeroed data]
  | scan value =>
      cases value with
      | none => simpa [SparesNull] using ⟨fun _ => rfl,fun failed => absurd rfl failed⟩
      | some value => simp [SparesNull,scans]

-- What each operation has to meet, the whole run has to meet.
theorem along_iff {P : Nullable T → Op T Src → Prop}
    (step : ∀ n op, Zeroed k n → (Keeps k n op ↔ P n op)) (zeroed : Zeroed k n)
    (ops : List (Op T Src)) : Along k (Keeps k) n ops ↔ Along k P n ops := by
  induction ops generalizing n with
  | nil => rfl
  | cons op rest ih =>
      constructor
      · rintro ⟨kept,later⟩
        exact ⟨(step n op zeroed).mp kept,(ih kept.1).mp later⟩
      · rintro ⟨met,later⟩
        have kept := (step n op zeroed).mpr met
        exact ⟨kept,(ih kept.1).mpr later⟩

-- What the rest of the program sees of a Nullable.
def toOption (n : Nullable T) : Option T := if n.valid then some n.val else none

-- A value that keeps the invariant is exactly an optional one.
theorem zeroed_ext {m : Nullable T} (one : Zeroed k n) (two : Zeroed k m) :
    n = m ↔ n.toOption = m.toOption := by
  obtain ⟨v,_ | _⟩ := n <;> obtain ⟨u,_ | _⟩ := m
  · cases one rfl
    cases two rfl
    simp [toOption]
  · simp [toOption]
  · simp [toOption]
  · simp [toOption]

-- The dynamic values a driver hands to Scan.
inductive Source where
  | string (text : String)
  | bytes (text : String)
  | other (type : String)
  deriving DecidableEq, Repr

def Source.type : Source → String
  | .string _ => "string"
  | .bytes _ => "[]uint8"
  | .other type => type

def Source.asString : Source → Option String
  | .string text => some text
  | _ => none

-- A Nullable[string]. json.Unmarshal is left open.
def text (unmarshal : Decoder String String) : Kind String Source where
  zero := ""
  isZero value := value = ""
  typeName := "string"
  typeOf := Source.type
  assert := Source.asString
  asString := Source.asString
  unmarshal := unmarshal
  scanner := none

theorem set_text (unmarshal : Decoder String String) (value : String) :
    (set (text unmarshal) value false).toOption = setNullable value := by
  unfold set setNullable
  by_cases empty : value = ""
  · simp [text,empty,toOption]
  · simp [text,empty,toOption]

end Nullable

-- Gender.Scan writes first and checks then. `quote` is %q. Its nil case is not
-- there: a Nullable answers nil itself.
def Gender.scan (quote : String → String) : Nullable.Decoder Gender Nullable.Source where
  check
    | .other type => some ("cannot scan " ++ type ++ " into Gender")
    | _ => none
  write
    | _,.string v => v
    | _,.bytes v => v
    | g,.other _ => g
  recheck g _ := if Gender.isValid g then none else some ("invalid gender " ++ quote g)

namespace Nullable

def gender (quote : String → String) (unmarshal : Decoder Gender String) : Kind Gender Source where
  zero := ""
  isZero value := value = ""
  typeName := "user.Gender"
  typeOf := Source.type
  assert _ := none
  asString := Source.asString
  unmarshal := unmarshal
  scanner := some (Gender.scan quote)

-- A text given for a gender is one, or the one already held.
def ValidOrHeld (n : Nullable Gender) (op : Op Gender Source) : Prop :=
  ∀ v, op = .scan (some (.string v)) ∨ op = .scan (some (.bytes v)) → Gender.isValid v = true ∨
    v = n.val

theorem gender_scan (quote : String → String) (unmarshal : Decoder Gender String)
    {n : Nullable Gender} (zeroed : Zeroed (gender quote unmarshal) n) (value : Source) :
    Keeps (gender quote unmarshal) n (.scan (some value)) ↔ ValidOrHeld n (.scan (some value)) := by
  rw [decoded_keeps (Gender.scan quote) value zeroed rfl]
  cases value with
  | other type => simp [ValidOrHeld,Gender.scan]
  | string v =>
      by_cases valid : Gender.isValid v = true
      · simp [ValidOrHeld,Gender.scan,valid]
      · simp [ValidOrHeld,Gender.scan,valid]
  | bytes v =>
      by_cases valid : Gender.isValid v = true
      · simp [ValidOrHeld,Gender.scan,valid]
      · simp [ValidOrHeld,Gender.scan,valid]

-- Along every run a null holds the zero value and an error changes nothing: for a type
-- whose decoder writes nothing before it fails, exactly if JSON null never comes to a
-- value that is not zero; for a gender, exactly if moreover every scanned text is a
-- gender or the text already held.
theorem nullable_zeroed {T Src : Type} (k : Kind T Src) (careful : k.Careful)
    (ops : List (Op T Src)) (quote : String → String) (unmarshal : Decoder Gender String)
    (genderOps : List (Op Gender Source)) :
    (Along k (Keeps k) (fresh k) ops ↔ Along k (SparesNull k) (fresh k) ops) ∧
    (Along (gender quote unmarshal) (Keeps (gender quote unmarshal))
      (fresh (gender quote unmarshal)) genderOps ↔
      Along (gender quote unmarshal) (fun n op => SparesNull (gender quote unmarshal) n op ∧
        ValidOrHeld n op)
        (fresh (gender quote unmarshal)) genderOps) := by
  constructor
  · refine along_iff (fun n op zeroed => ?_) (fun _ => rfl) ops
    have scans (value : Src) : Keeps k n (.scan (some value)) ↔ True :=
      iff_true_intro (careful_scan careful zeroed value)
    rw [keeps_iff zeroed scans op]
    exact and_iff_left fun _ _ => trivial
  · refine along_iff (fun n op zeroed => ?_) (fun _ => rfl) genderOps
    rw [keeps_iff zeroed (gender_scan quote unmarshal zeroed) op]
    refine and_congr_right fun _ => ⟨fun each v scanned => ?_,fun valid value same => same ▸ valid⟩
    rcases scanned with rfl | rfl
    · exact each _ rfl v (.inl rfl)
    · exact each _ rfl v (.inr rfl)

namespace Controls

-- No text is JSON.
def noJSON (T : Type) : Decoder T String :=
  ⟨fun _ => some "unexpected end of JSON input",fun held _ => held,fun _ _ => none⟩

def strings : Kind String Source := text (noJSON String)
def genders : Kind Gender Source := gender (fun v => "\"" ++ v ++ "\"") (noJSON Gender)

theorem strings_careful : strings.Careful := ⟨by rintro _ ⟨⟩,by rintro _ _ _ ⟨⟩⟩

theorem nullable_zeroed_row :
    Along strings (Keeps strings) (fresh strings) [.set "x" false,.scan none,
      .unmarshalJSON "null"] ∧
    Along genders (Keeps genders) (fresh genders) [.scan (some (.string "M")),.scan none] := by
  obtain ⟨texts,values⟩ :=
    nullable_zeroed strings strings_careful [.set "x" false,.scan none,.unmarshalJSON "null"]
    (fun v => "\"" ++ v ++ "\"") (noJSON Gender) [.scan (some (.string "M")),.scan none]
  constructor
  · exact texts.mpr ⟨by rintro ⟨⟩,by rintro ⟨⟩,fun _ => rfl,trivial⟩
  · refine values.mpr ⟨⟨by rintro ⟨⟩,fun v scanned => .inl ?_⟩,⟨nofun,nofun⟩,trivial⟩
    rcases scanned with same | same
    · cases same
      decide
    · cases same

-- JSON null leaves the old value behind, and a gender that is none is kept.
theorem null_keeps_value :
    ((set strings "x" false).apply strings (.unmarshalJSON "null")) = (⟨"x",false⟩,none) ∧
    ¬Along strings (Keeps strings) (fresh strings) [.set "x" false,.unmarshalJSON "null"] ∧
    ((fresh genders).apply genders (.scan (some (.string "X")))) = (⟨"X",false⟩,
      some "invalid gender \"X\"") ∧
    ¬Along genders (Keeps genders) (fresh genders) [.scan (some (.string "X"))] := by
  refine ⟨by decide,fun kept => ?_,by decide,fun kept => ?_⟩
  · exact absurd (kept.2.1.1 rfl) (by decide)
  · exact absurd (kept.1.1 rfl) (by decide)

end Controls
end Nullable
end RestApi
