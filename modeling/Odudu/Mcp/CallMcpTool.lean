import Odudu.Mcp.WriteTools
import Odudu.Runs.Reached

/-!
# One tool call and the write budget

`usecase/call-mcp-tool.ts`, `runTool` of `service/call-tool.ts` and `memoryWriteBudget` of
`service/write-budget.ts`: any number of calls over one budget, each at a stage of `callMcpTool`.
The budget handles a reservation at one moment and the call hears of it at another, or not before
it gave the wait up; it handles a release after the call has asked for it, also where the call
waits for that no longer; a request is answered, the tool ends and the deadline passes in any order.

The log is left out, and so is the text of what a client is told.
-/

set_option autoImplicit false

namespace Odudu.Mcp.WriteBudgets

open Runs

/-! ### `service/write-budget.ts` -/

structure BudgetLimits where
  mutating : ℕ
  creates : ℕ

def WRITE_BUDGET : BudgetLimits := ⟨20, 10⟩

/-- A create is also a mutating call. -/
inductive BudgetKind where
  | mutating
  | create
  deriving DecidableEq

/-- What has been spent. -/
structure MemoryWriteBudget where
  mutating : ℕ
  creates : ℕ

namespace MemoryWriteBudget

def hasRoom (limits : BudgetLimits) (budget : MemoryWriteBudget) (kind : BudgetKind) : Bool :=
  !(limits.mutating ≤ budget.mutating || kind = .create && limits.creates ≤ budget.creates)

def reserve (limits : BudgetLimits) (budget : MemoryWriteBudget) (kind : BudgetKind) :
    MemoryWriteBudget :=
  if budget.hasRoom limits kind then
    ⟨budget.mutating + 1, if kind = .create then budget.creates + 1 else budget.creates⟩
  else budget

def release (budget : MemoryWriteBudget) (kind : BudgetKind) : MemoryWriteBudget :=
  ⟨budget.mutating - 1, if kind = .create then budget.creates - 1 else budget.creates⟩

end MemoryWriteBudget

/-! ### Tools -/

inductive ToolAccess where
  | read
  | write
  deriving DecidableEq

structure RegisteredTool (Input Body : Type) where
  name : String
  routeKey : String
  access : ToolAccess
  spends : Option BudgetKind
  Args : Type
  input : Input → Parsed Args
  createsWhen : Option (Args → Bool)
  run : Input → Program Body

/-- A tool of the catalogue. -/
inductive ToolDefinition (Input Body : Type) where
  | content {Args : Type} (cfg : ContentWriteConfig Args Body) (input : Input → Parsed Args)
      (output : ToolData → Bool)
  | theme {Args : Type} (cfg : ThemeDraftConfig Args Body) (input : Input → Parsed Args)
      (output : ToolData → Bool)
  | read {Args : Type} (name routeKey : String) (input : Input → Parsed Args)
      (output : ToolData → Bool) (run : Args → Program Body)

variable {Input Body : Type}

def contentWriteTool {Args : Type} (cfg : ContentWriteConfig Args Body)
    (input : Input → Parsed Args) (output : ToolData → Bool) : RegisteredTool Input Body where
  name := cfg.name
  routeKey := cfg.routeKey
  access := .write
  spends := some (if cfg.mode = .create then .create else .mutating)
  Args := Args
  input := input
  createsWhen :=
    if cfg.mode = .put && cfg.createsWithoutEtag then some fun args ↦ (cfg.ifMatch args).isNone
    else none
  run := definedRun input output cfg.run

def themeDraftTool {Args : Type} (cfg : ThemeDraftConfig Args Body)
    (input : Input → Parsed Args) (output : ToolData → Bool) : RegisteredTool Input Body where
  name := cfg.name
  routeKey := "PUT " ++ cfg.pattern
  access := .write
  spends := some .mutating
  Args := Args
  input := input
  createsWhen := some fun args ↦ (cfg.ifMatch args).isNone
  run := definedRun input output cfg.run

def ToolDefinition.tool : ToolDefinition Input Body → RegisteredTool Input Body
  | content cfg input output => contentWriteTool cfg input output
  | theme cfg input output => themeDraftTool cfg input output
  | read name routeKey input output run =>
    { name, routeKey, access := .read, spends := none, Args := _, input, createsWhen := none
      run := definedRun input output run }

/-! ### `service/call-tool.ts` -/

def RESULT_CAP : ℕ := 256000

/-- The problem of a tool that ran, none where its data is returned; what it threw otherwise. -/
def runTool : Except Thrown ToolData → Except Unit (Option ToolProblem)
  | .ok data =>
    if RESULT_CAP < data.byteLength then
      .ok (some { problemType := "mcp:result_too_large", status := none })
    else .ok none
  | .error (.problem problem) => .ok (some problem)
  | .error _ => .error ()

/-! ### `usecase/call-mcp-tool.ts` -/

inductive Outcome where
  | allowed
  | refused
  | failed

inductive Reason where
  | insufficient_scope
  | missing_capability
  | timeout_outcome_unknown
  | write_budget

structure RecordedToolCall where
  tool : String
  route : String
  outcome : Outcome
  reason : Option Reason

/-- `/^insufficient_scope\\b/u` on what is left of the words. -/
def saysInsufficientScope (detail : Option String) : Bool :=
  detail.any fun text ↦
    let rest := text.toList.drop "insufficient_scope".length
    "insufficient_scope".toList.isPrefixOf text.toList &&
      !rest.head?.any fun c ↦ c.isAlphanum || c = '_'

def outcomeOf : Option ToolProblem → Outcome × Option Reason
  | none => (.allowed, none)
  | some problem =>
    if problem.problemType = "mcp:write_budget" then (.refused, some .write_budget)
    else if problem.problemType = "mcp:outcome_unknown" then
      (.failed, some .timeout_outcome_unknown)
    else if problem.status ≠ some 403 then (.failed, none)
    else
      (.refused, some (if problem.problemType = "mcp:insufficient_scope" ||
        saysInsufficientScope problem.detail then .insufficient_scope else .missing_capability))

inductive Spend where
  | nothing
  | undeclared
  | kind (kind : BudgetKind)

def spendOf (tool : RegisteredTool Input Body) (input : Input) : Spend :=
  if tool.access ≠ .write then .nothing
  else
    match tool.spends with
    | none => .undeclared
    | some spends =>
      match tool.input input with
      | .success args => .kind (if tool.createsWhen.any fun creates ↦ creates args then .create
          else spends)
      | _ => .nothing

def budgetUnavailable : ToolProblem :=
  { problemType := "mcp:write_budget_unavailable", status := some 503 }

def budgetSpent : ToolProblem := { problemType := "mcp:write_budget", status := some 429 }

def insufficientScope : ToolProblem :=
  { problemType := "mcp:insufficient_scope", status := some 403 }

/-- What a call that is given up on is answered with. -/
def timedOut : ToolAccess → ToolProblem
  | .write => { problemType := "mcp:outcome_unknown", status := some 504 }
  | .read => { problemType := "mcp:timeout", status := some 504 }

def internalError : ToolProblem := { problemType := "mcp:internal_error", status := some 500 }

/-- What a reservation that fails rejects with. -/
inductive ReserveFailure where
  | problem (problem : ToolProblem)
  | other

/-- How the budget handled a reservation. -/
inductive Admission where
  | admitted
  | full
  | failed (failure : ReserveFailure)

/-- A tool that runs: the place it has, what is left of it, and whether a request of it that was
answered may have changed something. -/
structure Running (Body : Type) where
  place : Option BudgetKind
  program : Program Body
  changed : Bool := false

/-- What a call left behind when it was answered. -/
inductive Ending (Body : Type) where
  /-- Its tool was not run. -/
  | refused
  /-- Nor was it after the wait for its place, which may be admitted yet, and heard of. -/
  | gaveUp (kind : BudgetKind) (admission : Option Admission) (heard : Bool)
  /-- Its tool, which may still be running. -/
  | ran (running : Running Body)

/-- How far a call is. -/
inductive Stage (Body : Type) where
  | starting
  /-- It waits for its place, up to five seconds. -/
  | reserving (kind : BudgetKind) (admission : Option Admission)
  /-- It waits for its tool, up to the deadline. -/
  | executing (running : Running Body)
  /-- It is answered once it is recorded; whether the row was written. -/
  | ended (problem : Option ToolProblem) (ending : Ending Body) (recorded : Option Bool)

/-- A call of `release`, and whether the budget took the place back, once it handled it. -/
structure Release where
  kind : BudgetKind
  tookBack : Option Bool

structure Call (Body : Type) where
  stage : Stage Body
  /-- The calls of `release`. -/
  released : List Release
  /-- The calls of `record`. -/
  records : List RecordedToolCall

def Call.new : Call Body := ⟨.starting, [], []⟩

inductive CallEvent (Body : Type) where
  | starts
  /-- The budget handles a reservation, or fails to. -/
  | reserves (failure : Option ReserveFailure)
  | hears
  | givesUp
  | hearsLate
  /-- The request that a tool waits for is answered. -/
  | answers (answer : CallerAnswer Body)
  /-- The tool has come to its end. -/
  | ends
  | deadline
  /-- The budget handles a release, or fails to. -/
  | releases (takesBack : Bool)
  | records (written : Bool)

/-- A call of a tool. -/
structure ToolCall (Input Body : Type) where
  definition : ToolDefinition Input Body
  input : Input
  /-- Left out where the caller makes no such check. -/
  holdsWrite : Option Bool

def ToolCall.tool (params : ToolCall Input Body) : RegisteredTool Input Body :=
  params.definition.tool

namespace Running

def answers (running : Running Body) (answer : CallerAnswer Body) : Running Body :=
  match running.program with
  | .done _ => running
  | .call request next =>
    { running with
      program := next answer
      changed := running.changed || request.mayChange answer }

end Running

namespace Call

/-- `released`, which asks the budget. -/
def givesBack (call : Call Body) (kind : BudgetKind) : Call Body :=
  { call with released := ⟨kind, none⟩ :: call.released }

/-- How the budget handles a release. -/
def releases (call : Call Body) (budget : MemoryWriteBudget) (takesBack : Bool) :
    Call Body × MemoryWriteBudget :=
  match call.released with
  | ⟨kind, none⟩ :: earlier =>
    ({ call with released := ⟨kind, some takesBack⟩ :: earlier },
      if takesBack then budget.release kind else budget)
  | _ => (call, budget)

/-- `callMcpTool` up to the reservation. -/
def starts (params : ToolCall Input Body) : Stage Body :=
  if params.tool.access = .write && params.holdsWrite = some false then
    .ended (some insufficientScope) .refused none
  else
    match spendOf params.tool params.input with
    | .nothing => .executing { place := none, program := params.tool.run params.input }
    | .undeclared => .ended (some budgetUnavailable) .refused none
    | .kind kind => .reserving kind none

/-- `reserved`, once its answer is heard in time. -/
def hears (params : ToolCall Input Body) (kind : BudgetKind) : Admission → Stage Body
  | .admitted => .executing { place := some kind, program := params.tool.run params.input }
  | .full => .ended (some budgetSpent) .refused none
  | .failed (.problem problem) => .ended (some problem) .refused none
  | .failed .other => .ended (some budgetUnavailable) .refused none

/-- The problem of a tool that has come to its end. -/
def problemOfRun (result : Except Thrown ToolData) : Option ToolProblem :=
  match runTool result with
  | .ok problem => problem
  | .error _ => some internalError

/-- The end of `execute`, and the place given back where nothing changed. -/
def ends (call : Call Body) (running : Running Body) (problem : Option ToolProblem) : Call Body :=
  let call := { call with stage := .ended problem (.ran running) none }
  match running.place with
  | none => call
  | some kind => if changedNothing problem then call.givesBack kind else call

/-- How the budget handles a reservation. -/
def admits (limits : BudgetLimits) (budget : MemoryWriteBudget) (kind : BudgetKind) :
    Option ReserveFailure → Admission × MemoryWriteBudget
  | some failure => (.failed failure, budget)
  | none => (if budget.hasRoom limits kind then .admitted else .full, budget.reserve limits kind)

/-- What happens to a call, where it can. -/
def step (limits : BudgetLimits) (params : ToolCall Input Body) (call : Call Body)
    (budget : MemoryWriteBudget) (e : CallEvent Body) : Call Body × MemoryWriteBudget :=
  match call.stage, e with
  | .starting, .starts => ({ call with stage := starts params }, budget)
  | .reserving kind none, .reserves failure =>
    let (admission, budget) := admits limits budget kind failure
    ({ call with stage := .reserving kind (some admission) }, budget)
  | .reserving kind (some admission), .hears =>
    ({ call with stage := hears params kind admission }, budget)
  | .reserving kind admission, .givesUp =>
    ({ call with stage := .ended (some budgetUnavailable) (.gaveUp kind admission false) none },
      budget)
  | .executing running, .answers answer =>
    ({ call with stage := .executing (running.answers answer) }, budget)
  | .executing ⟨place, .done result, changed⟩, .ends =>
    (call.ends ⟨place, .done result, changed⟩ (problemOfRun result), budget)
  | .executing running, .deadline =>
    ({ call with stage := .ended (some (timedOut params.tool.access)) (.ran running) none }, budget)
  | .ended problem (.gaveUp kind none heard) recorded, .reserves failure =>
    let (admission, budget) := admits limits budget kind failure
    ({ call with stage := .ended problem (.gaveUp kind (some admission) heard) recorded }, budget)
  | .ended problem (.gaveUp kind (some .admitted) false) recorded, .hearsLate =>
    ({ call with
        stage := .ended problem (.gaveUp kind (some .admitted) true) recorded }.givesBack kind, budget)
  -- A tool that was given up on goes on.
  | .ended problem (.ran running) recorded, .answers answer =>
    ({ call with stage := .ended problem (.ran (running.answers answer)) recorded }, budget)
  | .ended problem ending none, .records written =>
    ({ call with
        stage := .ended problem ending (some written)
        records := ⟨params.tool.name, params.tool.routeKey, (outcomeOf problem).1,
          (outcomeOf problem).2⟩ :: call.records }, budget)
  | _, .releases takesBack => call.releases budget takesBack
  | _, _ => (call, budget)

end Call

/-! ### Calls over one budget -/

structure Calls (Id Body : Type) where
  budget : MemoryWriteBudget
  call : Id → Call Body

variable {Id : Type}

def Calls.new : Calls Id Body := ⟨⟨0, 0⟩, fun _ ↦ .new⟩

def Calls.step [DecidableEq Id] (limits : BudgetLimits) (params : Id → ToolCall Input Body)
    (s : Calls Id Body) (e : Id × CallEvent Body) : Calls Id Body :=
  let (call, budget) := (s.call e.1).step limits (params e.1) s.budget e.2
  ⟨budget, Function.update s.call e.1 call⟩

/-- A state of a run of calls over one budget. -/
def Reachable [DecidableEq Id] (limits : BudgetLimits) (params : Id → ToolCall Input Body) :
    Calls Id Body → Prop :=
  Reached (Calls.step limits params) (fun _ _ _ ↦ True) .new

end Odudu.Mcp.WriteBudgets
