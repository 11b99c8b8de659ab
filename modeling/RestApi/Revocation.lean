import Mathlib.Data.Nat.Digits.Lemmas
import RestApi.Repository

namespace RestApi
open Service

-- strconv.FormatInt and strconv.ParseInt in base 10.
def formatInt : Int → String
  | .ofNat n => String.ofList (Nat.toDigits 10 n)
  | .negSucc n => String.ofList ('-' :: Nat.toDigits 10 (n+1))

def parseDigits (digits : List Char) : Option Int :=
  if digits ≠ [] ∧ digits.all Char.isDigit then some (Nat.ofDigitChars 10 digits 0) else none

def parseInt (text : String) : Option Int := match text.toList with
  | '-' :: digits => (parseDigits digits).map fun n => -n
  | '+' :: digits => parseDigits digits
  | digits => parseDigits digits

def revocationSkew : Duration := 5*second

def revocationTTL (jwtTTL : Duration) : Duration := if jwtTTL ≤ 0 then 0 else jwtTTL+revocationSkew

def revokedUserKey (userID : UUID) : String := "revoked:user:" ++ userID
def revokedSessionKey (sessionID : UUID) : String := "revoked:sess:" ++ sessionID

def revokedByWatermark (issuedAt : Time) (watermark : Int) : Bool :=
  !(watermark+revocationSkew < issuedAt)

-- A missing marker reads as the empty string.
def markerValue (values : List (Option String)) (i : Nat) : String := (values[i]?.join).getD ""

def decideRevoked (userMarker sessionMarker : String) (issuedAt : Time) : Except Err Bool :=
  if sessionMarker ≠ "" then .ok true
  else if userMarker = "" then .ok false
  else match parseInt userMarker with
    | none => .error .invalidWatermark
    | some watermark =>
        if watermark ≤ 0 then .error .invalidWatermark
        else .ok (revokedByWatermark issuedAt watermark)

def isRevoked (userID sessionID : UUID) (issuedAt deadline : Time) : Service Bool :=
  .call (.mget [revokedUserKey userID,revokedSessionKey sessionID] deadline) fun
    | .error _ => .fail (.wrapped "get revocation markers" .redis)
    | .ok values => match decideRevoked (markerValue values 0) (markerValue values 1) issuedAt with
        | .ok revoked => .done revoked
        | .error err => .fail err

def setMarkerCmd (key value text : String) (ttl : Duration) (deadline : Time) : Service Unit :=
  .call (.redisSet key value ttl deadline) fun
    | .ok _ => .done ()
    | .error _ => .fail (.wrapped text .redis)

def revokeAllForUser (cfg : Config) (userID : UUID) (deadline : Time) : Service Unit :=
  if revocationTTL cfg.jwtTTL = 0 then .done () else do
    let w ← now
    setMarkerCmd (revokedUserKey userID) (formatInt w) "revoke user tokens"
      (revocationTTL cfg.jwtTTL) deadline

def revokeSessionMarker (cfg : Config) (sessionID : UUID) (deadline : Time) : Service Unit :=
  if revocationTTL cfg.jwtTTL = 0 then .done () else
    setMarkerCmd (revokedSessionKey sessionID) "1" "revoke session"
      (revocationTTL cfg.jwtTTL) deadline

-- context.WithTimeout(context.WithoutCancel(ctx), 5*time.Second).
def cleanupDeadline : Service Time := do
  let created ← now
  return created+5*second

-- jwt.NewNumericDate cuts to the second.
def truncateSecond (t : Time) : Time := t-t%second

def accessToken (cfg : Config) (userID sessID : UUID) (role : Role)
    (signedAt : Time) : AccessToken :=
  ⟨userID,sessID,role,truncateSecond signedAt,truncateSecond (signedAt+cfg.jwtTTL)⟩

def signAccessToken (cfg : Config) (userID sessID : UUID) (role : Role) : Service AccessToken := do
  let signedAt ← now
  let token := accessToken cfg userID sessID role signedAt
  .call (.sign signedAt token) fun
    | .ok _ => .done token
    | .error _ => .fail .signing

-- Signature first, then the claims against the clock.
def verifyAccessToken (token : AccessToken) : Service Unit :=
  .call (.verify token) fun genuine =>
    if !genuine then .fail .accessTokenInvalid else do
      let verifiedAt ← now
      if ¬verifiedAt < token.expiresAt then throw .accessTokenExpired
      else if token.sessionID = uuidNil then throw .accessTokenInvalid
      else return ()

def revocationCheckTimeout : Duration := 300000000

-- authenticatorMiddleware.Authenticate, from the token string on. The timeout of
-- the check reads the clock again; any time may pass before it does.
def authenticate (cfg : Config) (token : AccessToken) : Service Value := do
  verifyAccessToken token
  let checkedAt ← now
  match ← attempt (isRevoked token.subject token.sessionID token.issuedAt
    (checkedAt+revocationCheckTimeout)) with
  | .error _ => if cfg.revocationFailClosed then throw .sessionInvalid else return .claims token
  | .ok true => throw .sessionInvalid
  | .ok false => return .claims token

theorem parseDigits_toDigits (n : Nat) : parseDigits (Nat.toDigits 10 n) = some (n : Int) := by
  have digits : (Nat.toDigits 10 n).all Char.isDigit = true :=
    List.all_eq_true.mpr fun c member => Nat.isDigit_of_mem_toDigits (by decide) (by decide) member
  rw [parseDigits,if_pos ⟨Nat.toDigits_ne_nil,digits⟩,
    Nat.ofDigitChars_toDigits (by decide) (by decide)]

-- A decimal number has no sign of its own.
theorem toDigits_unsigned (n : Nat) (sign : Char) (odd : sign.isDigit = false) (rest : List Char) :
    Nat.toDigits 10 n ≠ sign :: rest := by
  intro same
  have digit := Nat.isDigit_of_mem_toDigits (by decide) (by decide)
    (same ▸ List.mem_cons_self : sign ∈ Nat.toDigits 10 n)
  rw [odd] at digit
  cases digit

theorem parseInt_formatInt (w : Int) : parseInt (formatInt w) = some w := by
  cases w with
  | ofNat n =>
      have unsigned : parseInt (formatInt (.ofNat n)) = parseDigits (Nat.toDigits 10 n) := by
        simp only [parseInt,formatInt,String.toList_ofList]
        split
        · rename_i digits same
          exact absurd same (toDigits_unsigned n '-' (by decide) digits)
        · rename_i digits same
          exact absurd same (toDigits_unsigned n '+' (by decide) digits)
        · rfl
      rw [unsigned,parseDigits_toDigits]
      rfl
  | negSucc n =>
      simp only [parseInt,formatInt,String.toList_ofList,parseDigits_toDigits]
      rfl

theorem formatInt_injective (same : formatInt a = formatInt b) : a = b := by
  have parsed := congrArg parseInt same
  rw [parseInt_formatInt,parseInt_formatInt] at parsed
  exact Option.some.inj parsed

theorem formatInt_ne_empty (w : Int) : formatInt w ≠ "" := by
  intro blank
  have parsed := parseInt_formatInt w
  rw [blank] at parsed
  cases parsed

theorem user_not_session (userID sessionID : UUID) :
    revokedUserKey userID ≠ revokedSessionKey sessionID := by
  intro same
  have texts := congrArg String.toList same
  simp [revokedUserKey,revokedSessionKey,String.toList_append] at texts

theorem throttle_not_user (name userID : String) : "throttle:" ++ name ≠ revokedUserKey userID := by
  intro same
  have texts := congrArg String.toList same
  simp [revokedUserKey,String.toList_append] at texts

theorem throttle_not_session (name sessionID : String) :
    "throttle:" ++ name ≠ revokedSessionKey sessionID := by
  intro same
  have texts := congrArg String.toList same
  simp [revokedSessionKey,String.toList_append] at texts

theorem revokedUserKey_injective (same : revokedUserKey a = revokedUserKey b) : a = b :=
  (String.append_right_inj _).mp same
theorem revokedSessionKey_injective (same : revokedSessionKey a = revokedSessionKey b) : a = b :=
  (String.append_right_inj _).mp same

end RestApi
