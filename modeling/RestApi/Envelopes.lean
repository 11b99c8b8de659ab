import RestApi.JsonRecord
import RestApi.Revocation
import RestApi.StreamConsumer

namespace RestApi.Envelopes
open JsonText JsonRecord StreamConsumer

section Numbers

-- Only zero is written with a leading zero.
theorem toDigits_head {n : Nat} (positive : 0 < n) :
    ∃ c rest, Nat.toDigits 10 n = c :: rest ∧ c ≠ '0' := by
  induction n using Nat.strongRecOn with
  | ind n ih =>
      by_cases small : n < 10
      · rw [Nat.toDigits_of_lt_base small]
        refine ⟨_,_,rfl,?_⟩
        have nonzero : ∀ m < 10, 0 < m → Nat.digitChar m ≠ '0' := by decide
        exact nonzero n small positive
      · obtain ⟨c,rest,same,visible⟩ :=
          ih (n/10) (Nat.div_lt_self positive (by decide))
          (Nat.div_pos (Nat.le_of_not_lt small) (by decide))
        rw [Nat.toDigits_of_base_le (by decide) (Nat.le_of_not_lt small),same]
        exact ⟨c,_,rfl,visible⟩

theorem isInteger_toDigits (n : Nat) : isInteger (Nat.toDigits 10 n) = true := by
  have digits : isDigits (Nat.toDigits 10 n) = true := by
    have all : (Nat.toDigits 10 n).all Char.isDigit = true :=
      List.all_eq_true.mpr fun c member => Nat.isDigit_of_mem_toDigits (by decide)
        (by decide) member
    simp [isDigits,all,Nat.toDigits_ne_nil]
  rcases Nat.eq_zero_or_pos n with rfl | positive
  · rfl
  · obtain ⟨c,rest,same,visible⟩ := toDigits_head positive
    rw [same] at digits ⊢
    rw [isInteger.eq_def]
    split
    · rfl
    · rename_i equal
      cases equal
      exact absurd rfl visible
    · exact digits

theorem takeWhile_digits (n : Nat) :
    (Nat.toDigits 10 n).takeWhile Char.isDigit = Nat.toDigits 10 n ∧
    (Nat.toDigits 10 n).dropWhile Char.isDigit = [] := by
  have all : ∀ c ∈ Nat.toDigits 10 n, c.isDigit = true :=
    fun c member => Nat.isDigit_of_mem_toDigits (by decide) (by decide) member
  exact ⟨List.takeWhile_eq_self_iff.mpr all,List.dropWhile_eq_nil_iff.mpr all⟩

theorem isNumber_digits (n : Nat) : isNumber (Nat.toDigits 10 n) = true := by
  obtain ⟨taken,left⟩ := takeWhile_digits n
  have positive : unsigned (Nat.toDigits 10 n) = Nat.toDigits 10 n := by
    rw [unsigned.eq_def]
    split
    · rename_i rest same
      exact absurd same (toDigits_unsigned n '-' rfl rest)
    · rfl
  simp [isNumber,positive,taken,left,isInteger_toDigits]

theorem isNumber_negative (n : Nat) : isNumber ('-' :: Nat.toDigits 10 n) = true := by
  obtain ⟨taken,left⟩ := takeWhile_digits n
  simp [isNumber,unsigned,taken,left,isInteger_toDigits]

theorem numeric_digits (n : Nat) : (Nat.toDigits 10 n).all numeric = true := by
  refine List.all_eq_true.mpr fun c member => ?_
  have digit : c.isDigit = true := Nat.isDigit_of_mem_toDigits (by decide) (by decide) member
  simp [numeric,digit]

theorem formatInt_number (n : Int) :
    (isNumber (formatInt n).toList && (formatInt n).toList.all numeric) = true := by
  cases n with
  | ofNat n =>
      simp only [formatInt,String.toList_ofList,isNumber_digits,numeric_digits,Bool.and_self]
  | negSucc n =>
      have sign : numeric '-' = true := rfl
      simp only [formatInt,String.toList_ofList,isNumber_negative,List.all_cons,sign,numeric_digits,
        Bool.and_self]

def formatNumber (n : Int) : Number := ⟨(formatInt n).toList,formatInt_number n⟩

end Numbers

section Messages

def int64 (n : Int) : Prop := -9223372036854775808 ≤ n ∧ n ≤ 9223372036854775807

instance (n : Int) : Decidable (int64 n) := inferInstanceAs (Decidable (_ ∧ _))

-- auth.PasswordRecoveryMessage and auth.CompleteRegistrationMessage have the same
-- fields; the link has a name of its own in each.
structure MailMessage where
  recipient : String
  name : String
  url : String
  expiry : Int
  fits : int64 expiry
  deriving DecidableEq, Repr

def mismatch (struct path goType value : String) : String :=
  "json: cannot unmarshal " ++ value ++ " into Go struct field " ++ struct ++ "." ++ path ++
    " of type " ++ goType

def setExpiry (text : String) (message : MailMessage) : Option MailMessage :=
  match parseInt text with
  | none => none
  | some n => if fits : int64 n then some {message with expiry := n,fits := fits} else none

def mailFields (link struct : String) : List (Slot MailMessage) :=
  [⟨"to",storeString (mismatch struct "payload.to" "string") fun text message =>
    {message with recipient := text}⟩,⟨"name",storeString (mismatch struct "payload.name" "string")
    fun text message => {message with name := text}⟩,
    ⟨link,storeString (mismatch struct ("payload." ++ link) "string") fun text message =>
    {message with url := text}⟩,⟨"expiry_min",
    storeNumber (mismatch struct "payload.expiry_min" "time.Duration") setExpiry⟩]

def mailMembers (link : String) (message : MailMessage) : List (String × Json) :=
  [("to",.string message.recipient),("name",.string message.name),(link,.string message.url),
    ("expiry_min",.number (formatNumber message.expiry))]

def blankMail : MailMessage := ⟨"","","",0,by decide⟩

-- A struct that is written and read by its json tags. A reader ignores members it
-- does not know.
structure Coded (T : Type) where
  goType : String
  zero : T
  fields : List (Slot T)
  members : T → List (String × Json)
  complete : ∀ value, (members value).filter (known fields) = members value
  reads : ∀ value given, given.filter (known fields) = members value →
    storeMembers fields (zero,.fine) given = (value,.fine)

theorem setExpiry_format (message : MailMessage) (n : Int) (fits : int64 n) :
    setExpiry (String.ofList (formatNumber n).val) message =
      some {message with expiry := n,fits := fits} := by
  rw [setExpiry,formatNumber,String.ofList_toList,parseInt_formatInt]
  exact dif_pos fits

theorem mail_complete (link struct : String) (message : MailMessage) :
    (mailMembers link message).filter (known (mailFields link struct)) =
      mailMembers link message := by
  simp [mailMembers,known,target,mailFields,List.find?_isSome]

theorem mail_reads (link struct : String)
    (other : link ≠ "to" ∧ link ≠ "name" ∧ link ≠ "expiry_min") (message : MailMessage)
    (given : List (String × Json))
    (same : given.filter (known (mailFields link struct)) = mailMembers link message) :
    storeMembers (mailFields link struct) (blankMail,.fine) given = (message,.fine) := by
  obtain ⟨first,second,last⟩ := other
  have named : target (mailFields link struct) link = (mailFields link struct)[2]? := by
    simp [target,mailFields,first.symm,second.symm]
  have timed : target (mailFields link struct) "expiry_min" = (mailFields link struct)[3]? := by
    simp [target,mailFields,last]
  rw [← storeMembers_known,same,mailMembers,storeMembers_fine rfl rfl,storeMembers_fine rfl rfl,
    storeMembers_fine (named.trans rfl) rfl,storeMembers_fine (timed.trans rfl) (by
      simp only [storeNumber,setExpiry_format _ _ message.fits]
      rfl)]
  rfl

def passwordRecoveryMessage : Coded MailMessage where
  goType := "auth.PasswordRecoveryMessage"
  zero := blankMail
  fields := mailFields "reset_url" "PasswordRecoveryMessage"
  members := mailMembers "reset_url"
  complete := mail_complete "reset_url" "PasswordRecoveryMessage"
  reads := mail_reads "reset_url" "PasswordRecoveryMessage" (by decide)

def completeRegistrationMessage : Coded MailMessage where
  goType := "auth.CompleteRegistrationMessage"
  zero := blankMail
  fields := mailFields "url" "CompleteRegistrationMessage"
  members := mailMembers "url"
  complete := mail_complete "url" "CompleteRegistrationMessage"
  reads := mail_reads "url" "CompleteRegistrationMessage" (by decide)

end Messages

-- time.Time in its JSON form: RFC 3339, for the years that has.
structure TimeText where
  format : Int → Option String
  parse : String → Option Int
  parseError : String → String
  parse_format : ∀ time text, format time = some text → parse text = some time

section Format
variable {T : Type} (times : TimeText) (syntaxError : String → String) (struct : String)
  (payload : Coded T)

def blank : Envelope T := ⟨"",0,payload.zero⟩

def storeTime (env : Envelope T) : Json → Envelope T × Stored
  | .null => (env,.fine)
  | .string text => match times.parse text with
      | some time => ({env with timestamp := time},.fine)
      | none => (env,.aborted (times.parseError text))
  | _ => (env,.aborted "Time.UnmarshalJSON: input is not a JSON string")

def envelopeFields : List (Slot (Envelope T)) :=
  [⟨"id",storeString (mismatch struct "id" "string") fun text env => {env with id := text}⟩,
    ⟨"timestamp",storeTime times⟩,
    ⟨"payload",storeRecord (mismatch struct "payload" payload.goType) payload.fields Envelope.payload
      fun value env => {env with payload := value}⟩]

-- json.Unmarshal into an envelope.
def unmarshal (raw : String) : Envelope T × Option String := match parse raw.toList with
  | none => (blank payload,some (syntaxError raw))
  | some .null => (blank payload,none)
  | some (.object members) =>
      let stored := storeMembers (envelopeFields times struct payload) (blank payload,.fine) members
      (stored.1,stored.2.error)
  | some item =>
      (blank payload,some ("json: cannot unmarshal " ++ describe item ++
        " into Go value of type messaging." ++ struct))

def envelopeMembers (env : Envelope T) (time : String) : List (String × Json) :=
  [("id",.string env.id),("timestamp",.string time),
    ("payload",.object (payload.members env.payload))]

-- The values of the XADD.
def produceStream (env : Envelope T) : Except String Fields := match times.format env.timestamp with
  | none => .error ("marshal envelope: json: error calling MarshalJSON for type time.Time: " ++
      "Time.MarshalJSON: year outside of range [0,9999]")
  | some time =>
      .ok [("payload",String.ofList (encode (.object (envelopeMembers payload env time))))]

variable {times syntaxError struct payload}

-- Any text with the members of the envelope in it, among others that nobody knows.
theorem unmarshal_members {env : Envelope T} {time : String}
    (stamped : times.format env.timestamp = some time) (members inner : List (String × Json))
    (same : members.filter (known (envelopeFields times struct payload)) = [("id",.string env.id),
      ("timestamp",.string time),("payload",.object inner)])
    (also : inner.filter (known payload.fields) = payload.members env.payload) :
    unmarshal times syntaxError struct payload (String.ofList (encode (.object members))) = (env,
      none) := by
  have stored : storeMembers (envelopeFields times struct payload) (blank payload,.fine) members =
      (env,.fine) := by
    have timed : storeTime times ⟨env.id,0,payload.zero⟩
        (.string time) = (⟨env.id,env.timestamp,payload.zero⟩,.fine) := by
      simp only [storeTime,times.parse_format _ _ stamped]
    have filled : storeRecord (mismatch struct "payload" payload.goType) payload.fields
        Envelope.payload (fun value env => {env with payload := value})
        ⟨env.id,env.timestamp,payload.zero⟩ (.object inner) = (env,.fine) := by
      simp only [storeRecord,payload.reads env.payload inner also]
    rw [← storeMembers_known,same,storeMembers_fine rfl rfl,storeMembers_fine rfl timed,
      storeMembers_fine rfl filled]
    rfl
  rw [unmarshal,String.toList_ofList,parse_encode]
  simp only [stored]
  rfl

theorem unmarshal_produced (syntaxError : String → String) (struct : String) {env : Envelope T}
    (produced : produceStream times payload env = .ok values) :
    ∃ raw, values = [("payload",raw)] ∧
      unmarshal times syntaxError struct payload raw = (env,none) := by
  unfold produceStream at produced
  split at produced
  · cases produced
  · rename_i time stamped
    cases produced
    exact ⟨_,rfl,unmarshal_members stamped _ _ rfl (payload.complete env.payload)⟩

end Format

end RestApi.Envelopes
