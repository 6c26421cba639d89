import Mathlib.Data.List.Basic

/-!
# The tools that write

`service/define-tool.ts`, `service/write-tool.ts` and `service/tools/theme-write.ts`, with what
they use of `service/call-tool.ts` and `service/theme-draft.ts`: a tool is a program that makes
admin requests one after the other and ends with its data or an exception.  What the callers
(`adapter/http-caller.ts`, `adapter/in-process-caller.ts`) do of a request is its answer; one
that is not sent, or refused as unauthenticated with no bearer to try again with, reaches nothing.

A program *accounts* for its writes when it ends with a client error only where none of them may
have changed anything; the two families of write tools do (`accounts_contentWriteTool`,
`accounts_themeDraftTool`).

Of schemas and bodies only what the tools decide by is kept, and of data how long its text is;
titles, and the fields a refusal names, are left out.
-/

set_option autoImplicit false

namespace Odudu.Mcp.WriteBudgets

structure ToolProblem where
  problemType : String
  status : Option ℕ
  detail : Option String := none

/-- What a promise rejects with. -/
inductive Thrown where
  | problem (problem : ToolProblem)
  | zodError
  | other

inductive AdminMethod where
  | GET
  | PATCH
  | POST
  | PUT
  | DELETE
  deriving DecidableEq

structure AdminRequestSpec where
  method : AdminMethod
  pattern : String
  ifMatch : Option String := none
  createOnly : Bool := false
  asWriter : Bool := false
  idempotencyKey : Option String := none

structure AdminResult (Body : Type) where
  status : ℕ
  /-- The type and the detail of the body, where it is a problem. -/
  problem : Option (String × Option String)
  body : Body
  etag : Option String

/-- A request that was sent, and whose answer was not read. -/
inductive Lost where
  | timeout
  | unreachable
  | redirect
  | tooLarge
  | other

def Lost.thrown : Lost → Thrown
  | timeout => .problem { problemType := "mcp:timeout", status := some 504 }
  | unreachable => .problem { problemType := "mcp:unreachable", status := some 502 }
  | redirect => .problem { problemType := "mcp:redirect_refused", status := some 502 }
  | tooLarge => .problem { problemType := "mcp:result_too_large", status := none }
  | other => .other

inductive CallerAnswer (Body : Type) where
  | notSent (thrown : Thrown)
  | answered (result : AdminResult Body)
  | lost (how : Lost)

/-- A refusal as a client error. -/
def isClientError (status : ℕ) : Bool := 400 ≤ status && status < 500

/-- The admin API may have changed something on a request that was answered so. -/
def AdminRequestSpec.mayChange {Body : Type} (request : AdminRequestSpec) :
    CallerAnswer Body → Bool
  | .notSent _ => false
  | .answered result => request.method ≠ .GET && !isClientError result.status
  | .lost _ => request.method ≠ .GET

/-- The data of a tool, by the bytes of its text. -/
structure ToolData where
  byteLength : ℕ

/-- A tool's `run`. -/
inductive Program (Body : Type) where
  | done (result : Except Thrown ToolData)
  | call (request : AdminRequestSpec) (next : CallerAnswer Body → Program Body)

/-- `safeParse` of a tool's input. -/
inductive Parsed (Args : Type) where
  | success (args : Args)
  | refused (detail : String)
  | throws

variable {Input Args Body : Type}

/-- A write that answers 4xx was refused before it changed anything. -/
def changedNothing (problem : Option ToolProblem) : Bool :=
  problem.any fun problem ↦
    problem.problemType ≠ "mcp:outcome_unknown" && problem.status.any isClientError

/-! ### `service/define-tool.ts` -/

def invalidArguments (detail : String) : ToolProblem :=
  { problemType := "mcp:invalid_arguments", status := some 400, detail := some detail }

def unexpectedResponse : ToolProblem :=
  { problemType := "mcp:unexpected_response", status := none }

/-- What the tool answers is checked against its output, and what a schema throws is a problem. -/
def checkOutput (output : ToolData → Bool) : Program Body → Program Body
  | .done (.ok data) =>
    .done (if output data then .ok data else .error (.problem unexpectedResponse))
  | .done (.error .zodError) => .done (.error (.problem unexpectedResponse))
  | .done (.error thrown) => .done (.error thrown)
  | .call request next => .call request fun answer ↦ checkOutput output (next answer)

/-- The `run` of a defined tool. -/
def definedRun (input : Input → Parsed Args) (output : ToolData → Bool)
    (run : Args → Program Body) (raw : Input) : Program Body :=
  match input raw with
  | .refused detail => .done (.error (.problem (invalidArguments detail)))
  | .throws => .done (.error .other)
  | .success args => checkOutput output (run args)

/-! ### `service/write-tool.ts` -/

def problemOf (result : AdminResult Body) : ToolProblem :=
  match result.problem with
  | some (problemType, detail) => { problemType, status := some result.status, detail }
  | none => { problemType := "mcp:admin_error", status := some result.status }

inductive ContentWriteMode where
  | amend
  | create
  | put
  | delete
  deriving DecidableEq

structure ContentWriteConfig (Args Body : Type) where
  name : String
  routeKey : String
  pattern : String
  method : AdminMethod
  /-- `methodOf` throws for a read. -/
  method_ne : method ≠ .GET
  mode : ContentWriteMode
  createsWithoutEtag : Bool
  refusal : String
  stale : String
  ifMatch : Args → Option String
  idempotencyKey : Args → Option String
  /-- The response parsed, cleaned and parsed again, unless a schema throws. -/
  response : Body → Option ToolData
  deleted : ToolData

namespace ContentWriteConfig

def requestOf (cfg : ContentWriteConfig Args Body) (args : Args) : AdminRequestSpec where
  method := cfg.method
  pattern := cfg.pattern
  ifMatch := cfg.ifMatch args
  createOnly := cfg.mode = .put && cfg.createsWithoutEtag && (cfg.ifMatch args).isNone
  idempotencyKey := if cfg.mode = .create then cfg.idempotencyKey args else none

def refusedAs (cfg : ContentWriteConfig Args Body) (result : AdminResult Body) : ToolProblem :=
  let problem := problemOf result
  if result.status = 412 then { problem with status := some 412, detail := some cfg.stale }
  else if result.status = 403 && problem.detail = some "insufficient_scope" then
    { problem with status := some 403, detail := some cfg.refusal }
  else problem

def run (cfg : ContentWriteConfig Args Body) (args : Args) : Program Body :=
  .call (cfg.requestOf args) fun
    | .notSent thrown => .done (.error thrown)
    | .lost how => .done (.error how.thrown)
    | .answered result =>
      if result.status < 200 || 300 ≤ result.status then
        .done (.error (.problem (cfg.refusedAs result)))
      else if cfg.mode = .delete then .done (.ok cfg.deleted)
      else
        match cfg.response result.body with
        | some data => .done (.ok data)
        | none => .done (.error .zodError)

end ContentWriteConfig

/-! ### `service/tools/theme-write.ts` -/

/-- What a theme that was read is kept for. -/
structure ThemeDraftConfig (Args Body : Type) where
  name : String
  pattern : String
  refusal : String
  ifMatch : Args → Option String
  /-- Whether the theme that was read has a draft, unless its schema throws. -/
  hasDraft : Body → Option Bool
  /-- The draft with the named parts is not over the cap. -/
  fits : Body → Args → Bool
  /-- The answer to the model, unless its schema throws. -/
  answer : Body → Option ToolData

namespace ThemeDraftConfig

def stale : ToolProblem := { problemType := "about:blank", status := some 412 }

def tooLargeToRead : ToolProblem := { problemType := "mcp:theme_too_large", status := some 413 }

def sentButUnread : ToolProblem := { problemType := "mcp:outcome_unknown", status := some 504 }

def unreadable : ToolProblem := { problemType := "mcp:unexpected_response", status := none }

def draftTooLarge : ToolProblem := { problemType := "mcp:invalid_arguments", status := some 400 }

def isTooLarge : Thrown → Bool
  | .problem problem => problem.problemType = "mcp:result_too_large"
  | _ => false

def failed (cfg : ThemeDraftConfig Args Body) (result : AdminResult Body) : ToolProblem :=
  let problem := problemOf result
  if result.status = 403 && problem.detail = some "insufficient_scope" then
    { problem with status := some 403, detail := some cfg.refusal }
  else problem

/-- The etag of the draft that is held, none where there is no draft. -/
def heldOf (cfg : ThemeDraftConfig Args Body) (result : AdminResult Body) :
    Except Thrown (Option String) :=
  match cfg.hasDraft result.body with
  | none => .error .zodError
  | some false => .ok none
  | some true =>
    match result.etag with
    | some etag => .ok (some etag)
    | none => .error (.problem unreadable)

/-- The write, once the draft that was named is the one held. -/
def save (cfg : ThemeDraftConfig Args Body) (etag : Option String) : Program Body :=
  .call { method := .PUT, pattern := cfg.pattern, ifMatch := etag } fun
    | .notSent thrown =>
      .done (.error (if isTooLarge thrown then .problem sentButUnread else thrown))
    | .lost how =>
      .done (.error (if isTooLarge how.thrown then .problem sentButUnread else how.thrown))
    | .answered result =>
      if result.status = 412 || result.status = 428 then .done (.error (.problem stale))
      else if result.status < 200 || 300 ≤ result.status then
        .done (.error (.problem (cfg.failed result)))
      else
        match cfg.answer result.body with
        | some data => .done (.ok data)
        | none => .done (.error .zodError)

def run (cfg : ThemeDraftConfig Args Body) (args : Args) : Program Body :=
  .call { method := .GET, pattern := cfg.pattern, asWriter := true } fun
    | .notSent thrown =>
      .done (.error (if isTooLarge thrown then .problem tooLargeToRead else thrown))
    | .lost how =>
      .done (.error (if isTooLarge how.thrown then .problem tooLargeToRead else how.thrown))
    | .answered result =>
      if result.status < 200 || 300 ≤ result.status then
        .done (.error (.problem (cfg.failed result)))
      else
        match cfg.heldOf result with
        | .error thrown => .done (.error thrown)
        | .ok held =>
          if cfg.ifMatch args ≠ held then .done (.error (.problem stale))
          else if !cfg.fits result.body args then .done (.error (.problem draftTooLarge))
          else cfg.save held

end ThemeDraftConfig

/-! ### Accounting -/

/-- Of the requests of a program, of which one may have changed something by then, those that
may have changed something come before no client error. -/
def Program.Accounts : Bool → Program Body → Prop
  | changed, .done (.error (.problem problem)) => changedNothing (some problem) → changed = false
  | _, .done _ => True
  | changed, .call request next => ∀ answer, Accounts (changed || request.mayChange answer)
      (next answer)

theorem accounts_false (result : Except Thrown ToolData) :
    (Program.done result : Program Body).Accounts false := by
  rcases result with (_ | _ | _) | _
  · exact fun _ ↦ rfl
  · trivial
  · trivial
  · trivial

theorem accounts_lost (changed : Bool) (how : Lost) :
    (Program.done (.error how.thrown) : Program Body).Accounts changed := by
  cases how <;> first | trivial | exact fun hnothing ↦ absurd hnothing (by decide)

/-- A problem with the status of an answer says no client error that the answer was not. -/
theorem accounts_answered {request : AdminRequestSpec} {result : AdminResult Body}
    {problem : ToolProblem} (hstatus : problem.status = some result.status) :
    (Program.done (.error (.problem problem)) : Program Body).Accounts
      (request.mayChange (.answered result)) := by
  intro hnothing
  have hclient : isClientError result.status = true := by
    simp only [changedNothing, Option.any_some, hstatus, Bool.and_eq_true] at hnothing
    exact hnothing.2
  rw [AdminRequestSpec.mayChange, hclient, Bool.not_true, Bool.and_false]

/-- The output of a tool is checked without a client error. -/
theorem Program.Accounts.checkOutput (output : ToolData → Bool) {changed : Bool}
    {program : Program Body} (h : program.Accounts changed) :
    (WriteBudgets.checkOutput output program).Accounts changed := by
  have hunexpected : ∀ changed, (Program.done (.error (.problem unexpectedResponse)) :
      Program Body).Accounts changed := fun _ hnothing ↦ absurd hnothing (by decide)
  induction program generalizing changed with
  | done result =>
    match result with
    | .ok data =>
      unfold WriteBudgets.checkOutput
      split
      · trivial
      · exact hunexpected changed
    | .error .zodError => exact hunexpected changed
    | .error (.problem _) => exact h
    | .error .other => trivial
  | call _ _ ih => exact fun answer ↦ ih answer (h answer)

theorem accounts_contentWriteTool (cfg : ContentWriteConfig Args Body) (args : Args) :
    (cfg.run args).Accounts false := by
  intro answer
  rw [Bool.false_or]
  match answer with
  | .notSent thrown => exact accounts_false _
  | .lost how => exact accounts_lost _ how
  | .answered result =>
    dsimp only
    split
    · refine accounts_answered ?_
      have hproblem : (problemOf result).status = some result.status := by
        unfold problemOf
        split <;> rfl
      unfold ContentWriteConfig.refusedAs
      dsimp only
      split
      next hstale => rw [hstale]
      next =>
        split
        next hrefused =>
          rw [Bool.and_eq_true, decide_eq_true_eq] at hrefused
          rw [hrefused.1]
        next => exact hproblem
    · split
      · trivial
      · split <;> trivial

theorem failed_status (cfg : ThemeDraftConfig Args Body) (result : AdminResult Body) :
    (cfg.failed result).status = some result.status := by
  have hproblem : (problemOf result).status = some result.status := by
    unfold problemOf
    split <;> rfl
  unfold ThemeDraftConfig.failed
  dsimp only
  split
  next hrefused =>
    rw [Bool.and_eq_true, decide_eq_true_eq] at hrefused
    rw [hrefused.1]
  next => exact hproblem

theorem accounts_save (cfg : ThemeDraftConfig Args Body) (etag : Option String) :
    (cfg.save etag).Accounts false := by
  intro answer
  rw [Bool.false_or]
  match answer with
  | .notSent thrown => exact accounts_false _
  | .lost how =>
    dsimp only
    split
    · exact fun hnothing ↦ absurd hnothing (by decide)
    · exact accounts_lost _ how
  | .answered result =>
    dsimp only
    split
    next hstale =>
      have hclient : isClientError result.status = true := by
        rw [Bool.or_eq_true, decide_eq_true_eq, decide_eq_true_eq] at hstale
        rcases hstale with hstale | hstale <;> rw [hstale] <;> decide
      intro _
      rw [AdminRequestSpec.mayChange, hclient, Bool.not_true, Bool.and_false]
    next =>
      split
      · exact accounts_answered (failed_status cfg result)
      · split <;> trivial

theorem accounts_themeDraftTool (cfg : ThemeDraftConfig Args Body) (args : Args) :
    (cfg.run args).Accounts false := by
  intro answer
  have hread : ∀ answer : CallerAnswer Body, AdminRequestSpec.mayChange
      { method := .GET, pattern := cfg.pattern, asWriter := true } answer = false := by
    intro answer
    cases answer <;> rfl
  rw [hread, Bool.false_or]
  match answer with
  | .notSent thrown => exact accounts_false _
  | .lost how => exact accounts_false _
  | .answered result =>
    dsimp only
    split
    · exact accounts_false _
    · split
      · exact accounts_false _
      · split
        · exact accounts_false _
        · split
          · exact accounts_false _
          · exact accounts_save cfg _

/-- A tool whose program accounts for its writes does so once it is defined. -/
theorem accounts_definedRun (input : Input → Parsed Args) (output : ToolData → Bool)
    {run : Args → Program Body} (h : ∀ args, (run args).Accounts false) (raw : Input) :
    (definedRun input output run raw).Accounts false := by
  unfold definedRun
  cases input raw with
  | refused | throws => exact accounts_false _
  | success args => exact (h args).checkOutput output

end Odudu.Mcp.WriteBudgets
