import Odudu.ProtocolOidc.Schema
import Mathlib.Data.List.Dedup

/-!
# `prompt`, `max_age` and the reuse of a session

Whether a request can be answered from a session the browser has, has to authenticate, or
under `prompt=none` must be refused (`service/prompt.ts`, `usecase/session-reuse.ts`).
-/

set_option autoImplicit false

namespace Odudu.ProtocolOidc

/-- The values of a `prompt` parameter: `none` and `create` stand alone. -/
structure Prompts where
  values : List Prompt
  noneAlone : .none ∈ values → values.length ≤ 1
  createAlone : .create ∈ values → values.length ≤ 1

/-- No `prompt` at all. -/
def Prompts.absent : Prompts := ⟨[], by simp, by simp⟩

def promptOfToken : String → Option Prompt
  | "none" => some .none
  | "login" => some .login
  | "consent" => some .consent
  | "select_account" => some .selectAccount
  | "create" => some .create
  | _ => none

/-- Nothing where the parameter is invalid. -/
def parsePrompt (raw : Option String) : Option Prompts :=
  match raw with
  | none => some .absent
  | some raw =>
    match ((raw.splitOn " ").filter fun token ↦ token != "").mapM promptOfToken with
    | none => none
    | some tokens =>
      let values := tokens.dedup
      if h : (.none ∈ values → values.length ≤ 1) ∧ (.create ∈ values → values.length ≤ 1) then
        some ⟨values, h.1, h.2⟩
      else none

/-- A live session, as the decision to reuse one sees it. -/
structure ReusableSession where
  id : SessionId
  subjectId : SubjectId
  authTime : Time
  authenticators : List AuthenticatorName
  deriving DecidableEq

def toReusableSession (session : SessionId × Session) : ReusableSession where
  id := session.1
  subjectId := session.2.subjectId
  authTime := session.2.createdAt
  authenticators := session.2.authenticators

def withinMaxAge (authTime : Time) (maxAge : Option Time) (now : Time) : Bool :=
  match maxAge with
  | none => true
  | some maxAge => decide (now < authTime + maxAge)

/-- The errors a request is answered with at its `redirect_uri`. -/
inductive AuthorizationErrorCode where
  | loginRequired
  | accountSelectionRequired
  | consentRequired
  | accessDenied
  | invalidRequest
  | invalidScope
  | invalidTarget
  deriving DecidableEq

inductive ReuseDecision where
  | reuse (session : ReusableSession)
  | select (candidates : List ReusableSession)
  | authenticate
  | refuse (error : AuthorizationErrorCode)

def decideReuse (sessions : List ReusableSession) (prompts : List Prompt) (maxAge : Option Time)
    (now : Time) : ReuseDecision :=
  let silent := prompts.contains .none
  if prompts.contains .login then
    if silent then .refuse .loginRequired else .authenticate
  else
    let candidates := sessions.filter fun session ↦ withinMaxAge session.authTime maxAge now
    match candidates with
    | [] => if silent then .refuse .loginRequired else .authenticate
    | first :: others =>
      if others.isEmpty && !prompts.contains .selectAccount then .reuse first
      else if silent then .refuse .accountSelectionRequired
      else .select candidates

/-- A session is reused where it was offered, is not too old and no `prompt` wants the user; under
`none` nothing is asked. -/
theorem decideReuse_spec (sessions : List ReusableSession) (prompts : List Prompt)
    (maxAge : Option Time) (now : Time) :
    match decideReuse sessions prompts maxAge now with
    | .reuse session => session ∈ sessions ∧ withinMaxAge session.authTime maxAge now = true ∧
        .login ∉ prompts ∧ .selectAccount ∉ prompts
    | .refuse _ => .none ∈ prompts
    | .select _ | .authenticate => .none ∉ prompts := by
  unfold decideReuse
  by_cases hlogin : .login ∈ prompts
  · by_cases hnone : .none ∈ prompts <;> simp [hlogin, hnone]
  cases hcandidates : sessions.filter fun session ↦ withinMaxAge session.authTime maxAge now with
  | nil => by_cases hnone : .none ∈ prompts <;> simp [hlogin, hnone]
  | cons first others =>
    have hfirst := List.mem_filter.mp (hcandidates ▸ List.mem_cons_self : first ∈ _)
    by_cases hone : others = [] ∧ .selectAccount ∉ prompts
    · simp [hlogin, hone, hfirst]
    · by_cases hnone : .none ∈ prompts <;> simp [hlogin, hnone, if_neg hone]

end Odudu.ProtocolOidc
