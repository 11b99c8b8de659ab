import Mathlib.Data.List.TakeWhile

-- JSON as encoding/json writes and reads it, over texts of characters.
namespace RestApi.JsonText

section Numbers

def numeric (c : Char) : Bool := c.isDigit || c = '-' || c = '+' || c = '.' || c = 'e' || c = 'E'

def isDigits (text : List Char) : Bool := !text.isEmpty && text.all Char.isDigit

def isInteger : List Char → Bool
  | ['0'] => true
  | '0' :: _ => false
  | text => isDigits text

def isExponent : List Char → Bool
  | '+' :: text => isDigits text
  | '-' :: text => isDigits text
  | text => isDigits text

def unsigned : List Char → List Char
  | '-' :: text => text
  | text => text

-- The grammar of a number: an integer, a fraction and an exponent.
def isNumber (text : List Char) : Bool :=
  let whole := (unsigned text).takeWhile Char.isDigit
  let (fraction,rest) := match (unsigned text).dropWhile Char.isDigit with
    | '.' :: rest => (isDigits (rest.takeWhile Char.isDigit),rest.dropWhile Char.isDigit)
    | rest => (true,rest)
  let exponent := match rest with
    | [] => true
    | 'e' :: rest => isExponent rest
    | 'E' :: rest => isExponent rest
    | _ => false
  isInteger whole && fraction && exponent

theorem unsigned_plain {c : Char} (positive : c ≠ '-') (rest : List Char) :
    unsigned (c :: rest) = c :: rest := by
  rw [unsigned.eq_def]
  split
  · rename_i equal
    cases equal
    exact absurd rfl positive
  · rfl

abbrev Number := {text : List Char // (isNumber text && text.all numeric) = true}

end Numbers

inductive Json where
  | null
  | bool (value : Bool)
  | number (text : Number)
  | string (text : String)
  | array (items : List Json)
  | object (members : List (String × Json))

-- The members of an array or an object are the smaller values.
@[elab_as_elim] theorem induction {P : Json → Prop} (null : P .null)
    (bool : ∀ value, P (.bool value)) (number : ∀ text, P (.number text))
    (string : ∀ text, P (.string text))
    (array : ∀ items, (∀ item ∈ items, P item) → P (.array items))
    (object : ∀ members, (∀ member ∈ members, P member.2) → P (.object members)) (j : Json) : P j :=
  @Json.rec P (fun items => ∀ item ∈ items, P item) (fun members => ∀ member ∈ members, P member.2)
    (fun member => P member.2) null bool number string array object
    (fun _ absent => absurd absent List.not_mem_nil)
    (fun _ _ head tail => List.forall_mem_cons.mpr ⟨head,tail⟩)
    (fun _ absent => absurd absent List.not_mem_nil)
    (fun _ _ head tail => List.forall_mem_cons.mpr ⟨head,tail⟩) (fun _ _ value => value) j

section Strings

def hexDigits : List Char := ['0','1','2','3','4','5','6','7','8','9','a','b','c','d','e','f']

def hexDigit (n : Nat) : Char := hexDigits.getD n '0'

def hexValue (c : Char) : Option Nat :=
  if c.isDigit then some (c.toNat-48)
  else if 'a' ≤ c ∧ c ≤ 'f' then some (c.toNat-87)
  else if 'A' ≤ c ∧ c ≤ 'F' then some (c.toNat-55)
  else none

def unicode (n : Nat) : List Char :=
  ['\x5c','u',hexDigit (n/4096%16),hexDigit (n/256%16),hexDigit (n/16%16),hexDigit (n%16)]

-- The characters that are not written as they are: the two of the syntax, the
-- controls, those of HTML, and the line ends of JavaScript.
def escape (c : Char) : List Char :=
  if c = '\x22' then ['\x5c','\x22']
  else if c = '\x5c' then ['\x5c','\x5c']
  else if c = '\x08' then ['\x5c','b']
  else if c = '\x0c' then ['\x5c','f']
  else if c = '\n' then ['\x5c','n']
  else if c = '\r' then ['\x5c','r']
  else if c = '\t' then ['\x5c','t']
  else if c < ' ' ∨ c = '<' ∨ c = '>' ∨ c = '&' ∨ c = '\u2028' ∨ c = '\u2029' then unicode c.toNat
  else [c]

def quote (text : String) : List Char := '\x22' :: (text.toList.flatMap escape ++ ['\x22'])

def codeUnit (a b c d : Char) : Option Nat := match hexValue a,hexValue b,hexValue c,hexValue d with
  | some a,some b,some c,some d => some (4096*a+256*b+16*c+d)
  | _,_,_,_ => none

def isHigh (n : Nat) : Bool := 0xd800 ≤ n && n < 0xdc00
def isLow (n : Nat) : Bool := 0xdc00 ≤ n && n < 0xe000

-- Half of a surrogate pair stands for no character.
def replacement : Char := '\ufffd'

def unescape (c : Char) : Option Char :=
  if c = '\x22' ∨ c = '\x5c' ∨ c = '/' then some c
  else if c = 'b' then some '\x08'
  else if c = 'f' then some '\x0c'
  else if c = 'n' then some '\n'
  else if c = 'r' then some '\r'
  else if c = 't' then some '\t'
  else none

-- What a unit of UTF-16 adds, after the first half of a pair or alone, and whether
-- it is itself the first half of one.
def single (n : Nat) : List Char × Option Nat :=
  if isHigh n then ([],some n) else ([if isLow n then replacement else Char.ofNat n],none)

def unit (pending : Option Nat) (n : Nat) : List Char × Option Nat := match pending with
  | none => single n
  | some high =>
      if isLow n then ([Char.ofNat (0x10000+(high-0xd800)*1024+(n-0xdc00))],none)
      else (replacement :: (single n).1,(single n).2)

def alone (pending : Option Nat) : List Char := match pending with
  | none => []
  | some _ => [replacement]

def emit (chars : List Char) (read : Option (List Char × List Char)) :
    Option (List Char × List Char) :=
  read.map fun parts => (chars ++ parts.1,parts.2)

-- A string up to its closing quote.
def readString : Option Nat → List Char → Option (List Char × List Char)
  | _,[] => none
  | pending,'\x22' :: rest => some (alone pending,rest)
  | pending,'\x5c' :: 'u' :: a :: b :: c :: d :: rest => match codeUnit a b c d with
      | none => none
      | some n => emit (unit pending n).1 (readString (unit pending n).2 rest)
  | pending,'\x5c' :: c :: rest => match unescape c with
      | none => none
      | some plain => emit (alone pending ++ [plain]) (readString none rest)
  | _,['\x5c'] => none
  | pending,c :: rest =>
      if c < ' ' then none else emit (alone pending ++ [c]) (readString none rest)

end Strings

section Texts

mutual
def encode : Json → List Char
  | .null => ['n','u','l','l']
  | .bool true => ['t','r','u','e']
  | .bool false => ['f','a','l','s','e']
  | .number text => text.val
  | .string text => quote text
  | .array items => '[' :: ([','].intercalate (encodeItems items) ++ [']'])
  | .object members => '\x7b' :: ([','].intercalate (encodeMembers members) ++ ['\x7d'])
def encodeItems : List Json → List (List Char)
  | [] => []
  | item :: rest => encode item :: encodeItems rest
def encodeMembers : List (String × Json) → List (List Char)
  | [] => []
  | (name,item) :: rest => (quote name ++ ':' :: encode item) :: encodeMembers rest
end

def isSpace (c : Char) : Bool := c = ' ' || c = '\t' || c = '\r' || c = '\n'
def skip (text : List Char) : List Char := text.dropWhile isSpace

def readNumber (text : List Char) : Option (Json × List Char) :=
  let word := text.takeWhile numeric
  if good : (isNumber word && word.all numeric) = true then some (.number ⟨word,good⟩,
    text.dropWhile numeric) else none

mutual
def read : Nat → List Char → Option (Json × List Char)
  | 0,_ => none
  | fuel+1,text => match skip text with
      | 'n' :: 'u' :: 'l' :: 'l' :: rest => some (.null,rest)
      | 't' :: 'r' :: 'u' :: 'e' :: rest => some (.bool true,rest)
      | 'f' :: 'a' :: 'l' :: 's' :: 'e' :: rest => some (.bool false,rest)
      | '\x22' :: rest =>
          (readString none rest).map fun parts => (.string (String.ofList parts.1),parts.2)
      | '[' :: rest => match skip rest with
          | ']' :: rest => some (.array [],rest)
          | _ => (readItems fuel rest).map fun parts => (.array parts.1,parts.2)
      | '\x7b' :: rest => match skip rest with
          | '\x7d' :: rest => some (.object [],rest)
          | _ => (readMembers fuel rest).map fun parts => (.object parts.1,parts.2)
      | text => readNumber text
def readItems : Nat → List Char → Option (List Json × List Char)
  | 0,_ => none
  | fuel+1,text => (read fuel text).bind fun (item,rest) => match skip rest with
      | ',' :: rest => (readItems fuel rest).map fun parts => (item :: parts.1,parts.2)
      | ']' :: rest => some ([item],rest)
      | _ => none
def readMembers : Nat → List Char → Option (List (String × Json) × List Char)
  | 0,_ => none
  | fuel+1,text => match skip text with
      | '\x22' :: rest => (readString none rest).bind fun (name,rest) => match skip rest with
          | ':' :: rest => (read fuel rest).bind fun (item,rest) => match skip rest with
              | ',' :: rest =>
                  (readMembers fuel rest).map fun parts => ((String.ofList name,item) :: parts.1,
                    parts.2)
              | '\x7d' :: rest => some ([(String.ofList name,item)],rest)
              | _ => none
          | _ => none
      | _ => none
end

-- A document is one value and nothing else. No value is longer than its text.
def parse (text : List Char) : Option Json := match read text.length text with
  | some (value,rest) => if skip rest = [] then some value else none
  | none => none

end Texts

section Strings

theorem hexValue_hexDigit : ∀ n < 16, hexValue (hexDigit n) = some n := by decide

theorem codeUnit_unicode {n : Nat} (small : n < 65536) :
    codeUnit (hexDigit (n/4096%16)) (hexDigit (n/256%16)) (hexDigit (n/16%16))
      (hexDigit (n%16)) = some n := by
  have digit (m : Nat) : hexValue (hexDigit (m%16)) = some (m%16) :=
    hexValue_hexDigit _ (Nat.mod_lt _ (by decide))
  simp only [codeUnit,digit,Option.some.injEq]
  omega

-- The escaped characters are far from the surrogates.
theorem readString_unicode {c : Char} (small : c.toNat < 0xd800) (rest : List Char) :
    readString none (unicode c.toNat ++ rest) = emit [c] (readString none rest) := by
  have plain : single c.toNat = ([c],none) := by
    have low : isHigh c.toNat = false ∧ isLow c.toNat = false := by
      simp only [isHigh,isLow,Bool.and_eq_false_iff,decide_eq_false_iff_not]
      omega
    rw [single,low.1,low.2,Char.ofNat_toNat]
    rfl
  simp only [unicode,List.cons_append,List.nil_append,readString,
    codeUnit_unicode (Nat.lt_trans small (by decide)),unit,plain]

theorem readString_plain {c : Char} (quoted : c ≠ '\x22') (escaped : c ≠ '\x5c')
    (printed : ¬c < ' ') (rest : List Char) :
    readString none (c :: rest) = emit [c] (readString none rest) := by
  rw [readString.eq_def]
  split
  · rename_i same
    cases same
  · rename_i same
    cases same
    exact absurd rfl quoted
  · rename_i same
    cases same
    exact absurd rfl escaped
  · rename_i same
    cases same
    exact absurd rfl escaped
  · rename_i same
    cases same
    exact absurd rfl escaped
  · rename_i same
    cases same
    exact if_neg printed

theorem readString_escape (c : Char) (rest : List Char) :
    readString none (escape c ++ rest) = emit [c] (readString none rest) := by
  unfold escape
  split
  · subst_vars; rfl
  split
  · subst_vars; rfl
  split
  · subst_vars; rfl
  split
  · subst_vars; rfl
  split
  · subst_vars; rfl
  split
  · subst_vars; rfl
  split
  · subst_vars; rfl
  split
  · rename_i special
    refine readString_unicode ?_ rest
    rcases special with control | rfl | rfl | rfl | rfl | rfl
    · exact Nat.lt_trans (show c.toNat < 32 from control) (by decide)
    all_goals decide
  · rename_i quoted escaped _ _ _ _ _ plain
    exact readString_plain quoted escaped (fun control => plain (.inl control)) rest

theorem readString_quoted (text rest : List Char) :
    readString none (text.flatMap escape ++ '\x22' :: rest) = some (text,rest) := by
  induction text with
  | nil => rfl
  | cons c others ih =>
      rw [List.flatMap_cons,List.append_assoc,readString_escape,ih]
      rfl

end Strings

section RoundTrip

-- What may follow a value without becoming part of a number.
def Ends (rest : List Char) : Prop := ∀ c ∈ rest.head?, numeric c = false

theorem ends_cons {c : Char} (odd : numeric c = false) (rest : List Char) : Ends (c :: rest) := by
  intro d first
  cases first
  exact odd

theorem encodeItems_map (items : List Json) : encodeItems items = items.map encode := by
  induction items with
  | nil => rfl
  | cons item rest ih => rw [encodeItems,ih,List.map_cons]

theorem encodeMembers_map (members : List (String × Json)) :
    encodeMembers members = members.map fun member => quote member.1 ++ ':' :: encode member.2 := by
  induction members with
  | nil => rfl
  | cons member rest ih => rw [encodeMembers,ih,List.map_cons]

theorem skip_visible {c : Char} (visible : isSpace c = false) (rest : List Char) :
    skip (c :: rest) = c :: rest := by
  rw [skip,List.dropWhile_cons_of_neg (by simp [visible])]

theorem takeWhile_number (text : Number) (ends : Ends rest) :
    (text.val ++ rest).takeWhile numeric = text.val ∧
      (text.val ++ rest).dropWhile numeric = rest := by
  have all : ∀ c ∈ text.val, numeric c = true :=
    List.all_eq_true.mp (Bool.and_eq_true_iff.mp text.property).2
  have stops : rest.takeWhile numeric = [] ∧ rest.dropWhile numeric = rest := by
    cases rest with
    | nil => exact ⟨rfl,rfl⟩
    | cons c others =>
        have odd := ends c rfl
        simp [odd]
  rw [List.takeWhile_append_of_pos all,List.dropWhile_append_of_pos all,stops.1,stops.2,
    List.append_nil]
  exact ⟨rfl,rfl⟩

theorem readNumber_number (text : Number) (ends : Ends rest) :
    readNumber (text.val ++ rest) = some (.number text,rest) := by
  obtain ⟨taken,left⟩ := takeWhile_number text ends
  simp only [readNumber,taken,left]
  rw [dif_pos text.property]

-- A number starts with a digit or its sign.
theorem number_head (text : Number) :
    ∃ c rest, text.val = c :: rest ∧ (c.isDigit = true ∨ c = '-') := by
  obtain ⟨text,good⟩ := text
  replace good := (Bool.and_eq_true_iff.mp good).1
  cases text with
  | nil => cases good
  | cons c rest =>
      refine ⟨c,rest,rfl,?_⟩
      by_contra neither
      obtain ⟨odd,positive⟩ := not_or.mp neither
      have blank : (c :: rest).takeWhile Char.isDigit = [] := List.takeWhile_cons_of_neg odd
      simp only [isNumber,unsigned_plain positive,blank] at good
      cases good

-- The first character of a value. None of them is a space, and a closing bracket is none
-- of them.
theorem encode_head (j : Json) : ∃ c rest, encode j = c :: rest ∧ isSpace c = false ∧ c ≠ ']' := by
  cases j with
  | null => exact ⟨_,_,rfl,rfl,by decide⟩
  | bool value => cases value <;> exact ⟨_,_,rfl,rfl,by decide⟩
  | number text =>
      obtain ⟨c,rest,same,start⟩ := number_head text
      refine ⟨c,rest,same,?_,?_⟩
      · rcases start with digit | rfl
        · by_contra space
          simp only [isSpace,Bool.not_eq_false,Bool.or_eq_true,decide_eq_true_eq] at space
          rcases space with ((rfl | rfl) | rfl) | rfl <;> cases digit
        · rfl
      · rintro rfl
        rcases start with digit | same
        · cases digit
        · cases same
  | string text => exact ⟨_,_,rfl,rfl,by decide⟩
  | array items => exact ⟨_,_,rfl,rfl,by decide⟩
  | object members => exact ⟨_,_,rfl,rfl,by decide⟩

theorem encode_length (j : Json) : 0 < (encode j).length := by
  obtain ⟨c,rest,same,_⟩ := encode_head j
  rw [same]
  exact Nat.succ_pos _

theorem skip_encode (j : Json) (rest : List Char) : skip (encode j ++ rest) = encode j ++ rest := by
  obtain ⟨c,others,same,visible,_⟩ := encode_head j
  rw [same]
  exact skip_visible visible _

-- Everything that reads one value back, with as much fuel as its text is long.
def Reads (j : Json) : Prop :=
  ∀ fuel rest, (encode j).length ≤ fuel → Ends rest → read fuel (encode j ++ rest) = some (j,rest)

theorem intercalate_cons (piece next : List Char) (pieces : List (List Char)) :
    [','].intercalate (piece :: next :: pieces) = piece ++ ',' :: [','].intercalate
      (next :: pieces) := by
  simp [List.intercalate]

theorem intercalate_head (piece : List Char) (pieces : List (List Char)) :
    ∃ more, [','].intercalate (piece :: pieces) = piece ++ more := by
  cases pieces with
  | nil => exact ⟨[],by simp [List.intercalate]⟩
  | cons next pieces => exact ⟨_,intercalate_cons piece next pieces⟩

theorem readItems_encode {items : List Json} (filled : items ≠ [])
    (reads : ∀ item ∈ items, Reads item) (fuel : Nat) (rest : List Char)
    (enough : ([','].intercalate (items.map encode)).length < fuel) :
    readItems fuel ([','].intercalate (items.map encode) ++ ']' :: rest) = some (items,rest) := by
  induction items generalizing fuel with
  | nil => exact absurd rfl filled
  | cons item others ih =>
      obtain ⟨first,later⟩ := List.forall_mem_cons.mp reads
      cases fuel with
      | zero => cases enough
      | succ fuel =>
          cases others with
          | nil =>
              have alone : [','].intercalate ([item].map encode) = encode item := by
                simp [List.intercalate]
              rw [alone] at enough ⊢
              rw [readItems,first fuel _ (Nat.le_of_lt_succ enough) (ends_cons rfl _)]
              rfl
          | cons next items =>
              simp only [List.map_cons,intercalate_cons,List.length_append,List.length_cons]
                at enough ih ⊢
              have after := ih (List.cons_ne_nil _ _) later fuel (by omega)
              rw [List.append_assoc,List.cons_append,readItems,
                first fuel _ (by omega) (ends_cons rfl _)]
              simp only [Option.bind_some]
              rw [skip_visible (by rfl)]
              simp only [after,Option.map_some]


theorem readMembers_one (name : String) {item : Json} (reads : Reads item) (fuel : Nat) {c : Char}
    (odd : numeric c = false) (rest : List Char)
    (enough : (quote name ++ ':' :: encode item).length ≤ fuel) :
    readMembers (fuel+1) ((quote name ++ ':' :: encode item) ++ c :: rest) = match skip
      (c :: rest) with
      | ',' :: rest => (readMembers fuel rest).map fun parts => ((name,item) :: parts.1,parts.2)
      | '\x7d' :: rest => some ([(name,item)],rest)
      | _ => none := by
  have short : (encode item).length ≤ fuel := by
    simp only [List.length_append,List.length_cons] at enough
    omega
  have whole : (quote name ++ ':' :: encode item) ++ c :: rest =
      '\x22' :: (name.toList.flatMap escape ++ '\x22' :: ':' :: (encode item ++ c :: rest)) := by
    simp [quote]
  rw [whole,readMembers,skip_visible (by rfl)]
  simp only [readString_quoted,Option.bind_some]
  rw [skip_visible (by rfl)]
  simp only [reads fuel _ short (ends_cons odd rest),Option.bind_some,String.ofList_toList]

theorem readMembers_encode {members : List (String × Json)} (filled : members ≠ [])
    (reads : ∀ member ∈ members, Reads member.2) (fuel : Nat) (rest : List Char)
    (enough : ([','].intercalate (members.map fun member => quote member.1 ++
      ':' :: encode member.2)).length < fuel) :
    readMembers fuel ([','].intercalate (members.map fun member => quote member.1 ++
      ':' :: encode member.2) ++ '\x7d' :: rest) =
      some (members,rest) := by
  induction members generalizing fuel with
  | nil => exact absurd rfl filled
  | cons member others ih =>
      obtain ⟨first,later⟩ := List.forall_mem_cons.mp reads
      cases fuel with
      | zero => cases enough
      | succ fuel =>
          cases others with
          | nil =>
              have alone : [','].intercalate ([member].map fun member => quote member.1 ++
                ':' :: encode member.2) = quote member.1 ++ ':' :: encode member.2 := by
                simp [List.intercalate]
              rw [alone] at enough ⊢
              rw [readMembers_one member.1 first fuel rfl rest (Nat.le_of_lt_succ enough),
                skip_visible (by rfl)]
              rfl
          | cons next members =>
              simp only [List.map_cons,intercalate_cons] at enough ih ⊢
              rw [List.length_append,List.length_cons] at enough
              have after := ih (List.cons_ne_nil _ _) later fuel (by omega)
              rw [List.append_assoc,List.cons_append,
                readMembers_one member.1 first fuel rfl _ (by omega),skip_visible (by rfl)]
              simp only [after,Option.map_some]

-- No other kind of value starts like a number.
theorem read_number (text : Number) (fuel : Nat) (ends : Ends rest) :
    read (fuel+1) (text.val ++ rest) = some (.number text,rest) := by
  have never {d : Char} {tail : List Char} (odd : d.isDigit = false) (unsigned : d ≠ '-') :
      text.val ++ rest ≠ d :: tail := by
    obtain ⟨c,others,same,start⟩ := number_head text
    rw [same,List.cons_append]
    intro equal
    cases (List.cons.inj equal).1
    rcases start with digit | sign
    · exact absurd digit (by simp [odd])
    · exact unsigned sign
  rw [read,show skip (text.val ++ rest) = text.val ++ rest from skip_encode (.number text) rest]
  split
  · rename_i equal
    exact absurd equal (never rfl (by decide))
  · rename_i equal
    exact absurd equal (never rfl (by decide))
  · rename_i equal
    exact absurd equal (never rfl (by decide))
  · rename_i equal
    exact absurd equal (never rfl (by decide))
  · rename_i equal
    exact absurd equal (never rfl (by decide))
  · rename_i equal
    exact absurd equal (never rfl (by decide))
  · exact readNumber_number text ends

theorem read_array {items : List Json} (reads : ∀ item ∈ items, Reads item) (fuel : Nat)
    (rest : List Char) (enough : (encode (.array items)).length ≤ fuel+1) :
    read (fuel+1) (encode (.array items) ++ rest) = some (.array items,rest) := by
  rw [encode,encodeItems_map] at enough ⊢
  rw [List.cons_append,List.append_assoc,read,skip_visible (by rfl)]
  cases items with
  | nil => rfl
  | cons item others =>
      have inner := readItems_encode (List.cons_ne_nil item others) reads fuel rest (by
        simp only [List.length_cons,List.length_append] at enough
        omega)
      obtain ⟨c,tail,same,visible,unclosed⟩ := encode_head item
      obtain ⟨more,whole⟩ := intercalate_head (encode item) (others.map encode)
      have starts : [','].intercalate ((item :: others).map encode) ++
          ([']'] ++ rest) = c :: (tail ++ more ++ ([']'] ++ rest)) := by
        rw [List.map_cons,whole,same,List.cons_append,List.cons_append]
      replace inner : readItems fuel ([','].intercalate ((item :: others).map encode) ++
        ([']'] ++ rest)) = some (item :: others,rest) := inner
      rw [starts] at inner ⊢
      simp only [skip_visible visible]
      split
      · rename_i equal
        exact absurd (List.cons.inj equal).1 unclosed
      · rw [inner,Option.map_some]

theorem read_object {members : List (String × Json)} (reads : ∀ member ∈ members, Reads member.2)
    (fuel : Nat) (rest : List Char) (enough : (encode (.object members)).length ≤ fuel+1) :
    read (fuel+1) (encode (.object members) ++ rest) = some (.object members,rest) := by
  rw [encode,encodeMembers_map] at enough ⊢
  rw [List.cons_append,List.append_assoc,read,skip_visible (by rfl)]
  cases members with
  | nil => rfl
  | cons member others =>
      have inner := readMembers_encode (List.cons_ne_nil member others) reads fuel rest (by
        simp only [List.length_cons,List.length_append] at enough
        omega)
      obtain ⟨more,whole⟩ := intercalate_head (quote member.1 ++ ':' :: encode member.2)
        (others.map fun member => quote member.1 ++ ':' :: encode member.2)
      rw [List.map_cons,whole,quote] at inner ⊢
      simp only [List.cons_append,List.nil_append] at inner ⊢
      simp only [skip_visible (c := '\x22') rfl]
      exact congrArg (Option.map fun parts => (Json.object parts.1,parts.2)) inner

theorem read_encode (j : Json) : Reads j := by
  have fueled {j : Json} (step : ∀ fuel rest, (encode j).length ≤ fuel+1 → Ends rest →
      read (fuel+1) (encode j ++ rest) = some (j,rest)) : Reads j := by
    intro fuel rest enough ends
    cases fuel with
    | zero => exact absurd enough (Nat.not_le.mpr (encode_length j))
    | succ fuel => exact step fuel rest enough ends
  induction j using induction with
  | null => exact fueled fun _ _ _ _ => rfl
  | bool value => cases value <;> exact fueled fun _ _ _ _ => rfl
  | number text => exact fueled fun fuel rest _ ends => read_number text fuel ends
  | string text =>
      refine fueled fun fuel rest _ _ => ?_
      have whole : encode (.string text) ++
        rest = '\x22' :: (text.toList.flatMap escape ++ '\x22' :: rest) := by simp [encode,quote]
      rw [whole,read,skip_visible (by rfl)]
      simp only [readString_quoted,Option.map_some,String.ofList_toList]
  | array items ih => exact fueled fun fuel rest enough _ => read_array ih fuel rest enough
  | object members ih => exact fueled fun fuel rest enough _ => read_object ih fuel rest enough

-- What is written is read back.
theorem parse_encode (j : Json) : parse (encode j) = some j := by
  have whole := read_encode j (encode j).length [] (Nat.le_refl _) (by rintro _ ⟨⟩)
  rw [List.append_nil] at whole
  rw [parse,whole]
  rfl

end RoundTrip
end RestApi.JsonText
