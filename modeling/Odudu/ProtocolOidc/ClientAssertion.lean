import Odudu.Numbers.Doubles

/-!
# Client assertions

What can be read of a client's assertion without its key (`service/client-assertion.ts`):
`parseClientAssertion` takes it or refuses it by its shape, its claims and the time, and
says until when its `jti` is to be remembered.

Two things are inputs: how the numbers of the language round, and the value that a payload
decodes to.  An instant is in whole milliseconds, within the range of a date.
-/

set_option autoImplicit false

namespace Odudu.ProtocolOidc.ClientAssertion

open Numbers

/-- The last instant a date can name. -/
def MAX_TIME : ℤ := 8640000000000000

/-- A date. -/
abbrev Date := {time : ℤ // |time| ≤ MAX_TIME}

/-- A decoded value. -/
inductive Json where
  | null
  | bool (b : Bool)
  | number (x : ℚ)
  | string (s : String)
  | array (items : List Json)
  | object (fields : List (String × Json))

/-- A property of an object. -/
def Json.get (name : String) : Json → Option Json
  | object fields => fields.lookup name
  | _ => none

/-- How the language computes and decodes. -/
structure Runtime where
  numbers : Rounding
  /-- The value that a payload, base64url, decodes to. -/
  decode : List Char → Option Json

def CLIENT_ASSERTION_TYPE : String := "urn:ietf:params:oauth:client-assertion-type:jwt-bearer"

def MAX_ASSERTION_LIFETIME_SECONDS : ℚ := 300

def ASSERTION_LEEWAY_SECONDS : ℚ := 30

/-- A field of a form. -/
inductive FieldValue where
  | string (value : String)
  | strings (values : List String)
  deriving DecidableEq

structure ClientAssertionBody where
  client_assertion : Option FieldValue
  client_assertion_type : Option FieldValue

/-- What an assertion that was taken says. -/
structure TakenAssertion where
  claimedClientId : String
  jti : String
  /-- In milliseconds. -/
  expiresAt : ℤ
  assertion : String
  deriving DecidableEq

inductive AssertionOutcome where
  | ok (taken : TakenAssertion)
  | unsupported
  | invalid
  deriving DecidableEq

structure Claims where
  iss : String
  sub : String
  aud : String
  exp : ℚ
  jti : String

/-- A claim that is a string, and not the empty one. -/
def stringClaim (payload : Json) (name : String) : Option String :=
  match payload.get name with
  | some (.string s) => if s = "" then none else some s
  | _ => none

def numberClaim (payload : Json) (name : String) : Option ℚ :=
  match payload.get name with
  | some (.number x) => some x
  | _ => none

def clientAssertionClaims (payload : Json) : Option Claims := do
  let iss ← stringClaim payload "iss"
  let sub ← stringClaim payload "sub"
  let aud ← stringClaim payload "aud"
  let exp ← numberClaim payload "exp"
  let jti ← stringClaim payload "jti"
  pure { iss, sub, aud, exp, jti }

variable (rt : Runtime)

/-- The middle of three segments, none of which is empty, decoded. -/
def decodeAssertionPayload (assertion : String) : Option Json :=
  match assertion.toList.splitOn '.' with
  | [header, payload, signature] =>
    if header = [] ∨ payload = [] ∨ signature = [] then none else rt.decode payload
  | _ => none

/-- The claims that an assertion makes. -/
def claimsOf (assertion : String) : Option Claims :=
  (decodeAssertionPayload rt assertion).bind clientAssertionClaims

/-- `exp` with the leeway, in seconds. -/
def Claims.until (claims : Claims) : ℚ := rt.numbers.add claims.exp ASSERTION_LEEWAY_SECONDS

/-- The last millisecond its `jti` is to be remembered for. -/
def Claims.expiresAt (claims : Claims) : ℤ := truncate (rt.numbers.mul (claims.until rt) 1000)

/-- An instant in seconds. -/
def seconds (now : Date) : ℚ := rt.numbers.div now.val 1000

def parseClientAssertion (body : ClientAssertionBody) (now : Date) (audiences : List String) :
    AssertionOutcome :=
  if body.client_assertion_type ≠ some (.string CLIENT_ASSERTION_TYPE) then .unsupported
  else
    match body.client_assertion with
    | some (.string assertion) =>
      match claimsOf rt assertion with
      | none => .invalid
      | some claims =>
        if claims.iss ≠ claims.sub then .invalid
        else if claims.aud ∉ audiences then .invalid
        else if claims.until rt ≤ seconds rt now then .invalid
        else if MAX_ASSERTION_LIFETIME_SECONDS < rt.numbers.sub claims.exp (seconds rt now) then
          .invalid
        else .ok {
          claimedClientId := claims.sub
          jti := claims.jti
          expiresAt := claims.expiresAt rt
          assertion }
    | _ => .invalid

variable {rt} {body : ClientAssertionBody} {now : Date} {audiences : List String}
  {taken : TakenAssertion}

/-- What is taken of an assertion is what its claims say, and it has not run out. -/
theorem claims_of_taken (h : parseClientAssertion rt body now audiences = .ok taken) :
    body.client_assertion = some (.string taken.assertion) ∧
      ∃ claims, claimsOf rt taken.assertion = some claims ∧ claims.iss = claims.sub ∧
        claims.aud ∈ audiences ∧ seconds rt now < claims.until rt ∧
          taken = ⟨claims.sub, claims.jti, claims.expiresAt rt, taken.assertion⟩ := by
  unfold parseClientAssertion at h
  split at h
  · cases h
  · split at h
    case h_2 => cases h
    case h_1 assertion hbody =>
      split at h
      case h_1 => cases h
      case h_2 claims hclaims =>
        split_ifs at h with hiss haud hrunout hlong
        obtain rfl := AssertionOutcome.ok.inj h
        exact ⟨hbody, claims, hclaims, not_not.mp hiss, haud, not_le.mp hrunout, rfl⟩

theorem abs_le_of_date (now : Date) : |now.val| ≤ 2 ^ 53 :=
  now.property.trans (by decide)

theorem le_expiresAt (h : parseClientAssertion rt body now audiences = .ok taken) :
    now.val ≤ taken.expiresAt := by
  obtain ⟨-, claims, -, -, -, hlive, heq⟩ := claims_of_taken h
  rw [heq]
  refine le_truncate (Rounding.le_round (abs_le_of_date now) ?_)
  have hseconds : (now.val : ℚ) / 1000 < claims.until rt :=
    Rounding.lt_of_round_lt_of_round_eq (rt.numbers.idem _) hlive
  exact ((div_lt_iff₀ (by norm_num)).mp hseconds).le

end Odudu.ProtocolOidc.ClientAssertion
