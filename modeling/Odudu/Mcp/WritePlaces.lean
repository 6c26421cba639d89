import Odudu.Mcp.CallMcpTool

/-!
# The place of a write call

What `callMcpTool` keeps for one call, whatever happens to it and in any order: at each stage the
place it was given and what became of it, the rows it handed in, and what its tool may have changed
(`accounted_step`).  From this, `exact_of_accounted`: a place is kept where a write may have changed
something, and is given back where the tool ended with a client error or was admitted after the
wait, once, and nowhere else.
-/

set_option autoImplicit false

namespace Odudu.Mcp.WriteBudgets

open Runs

variable {Input Body : Type}

/-! ### What a tool answers for -/

theorem accounts_tool (definition : ToolDefinition Input Body)
    (h : definition.tool.access = .write) (input : Input) :
    (definition.tool.run input).Accounts false := by
  cases definition with
  | content cfg schema output =>
    exact accounts_definedRun schema output (accounts_contentWriteTool cfg) input
  | theme cfg schema output =>
    exact accounts_definedRun schema output (accounts_themeDraftTool cfg) input
  | read => exact nomatch h

/-- A write tool that is run without a place was sent arguments its schema refuses. -/
theorem done_of_spendOf_nothing (definition : ToolDefinition Input Body)
    (h : definition.tool.access = .write) {input : Input}
    (hspend : spendOf definition.tool input = .nothing) :
    ∃ result, definition.tool.run input = .done result := by
  have hdefined : ∀ {Args : Type} {schema : Input → Parsed Args} {output : ToolData → Bool}
      {run : Args → Program Body}, (∀ args, schema input ≠ .success args) →
      ∃ result, definedRun schema output run input = .done result := by
    intro Args schema output run hschema
    unfold definedRun
    cases hinput : schema input with
    | success args => exact absurd hinput (hschema args)
    | refused | throws => exact ⟨_, rfl⟩
  cases definition with
  | content =>
    refine hdefined fun args hargs ↦ ?_
    simp [spendOf, ToolDefinition.tool, contentWriteTool, hargs] at hspend
  | theme =>
    refine hdefined fun args hargs ↦ ?_
    simp [spendOf, ToolDefinition.tool, themeDraftTool, hargs] at hspend
  | read => exact nomatch h

/-! ### Calls -/

/-- A write of the tool may have changed something: one was answered so, or is not answered. -/
def Running.mayHaveChanged (running : Running Body) : Bool :=
  running.changed ||
    match running.program with
    | .call request _ => request.method ≠ .GET
    | .done _ => false

namespace Call

def running (call : Call Body) : Option (Running Body) :=
  match call.stage with
  | .executing running => some running
  | .ended _ (.ran running) _ => some running
  | _ => none

/-- The upstream write of a call may have changed something. -/
def mayHaveChanged (call : Call Body) : Bool := call.running.any Running.mayHaveChanged

/-- The place the budget gave a call. -/
def place (call : Call Body) : Option BudgetKind :=
  match call.stage with
  | .reserving kind (some .admitted) => some kind
  | .executing running => running.place
  | .ended _ (.ran running) _ => running.place
  | .ended _ (.gaveUp kind (some .admitted) _) _ => some kind
  | _ => none

/-- The place that is spent in the budget. -/
def spent (call : Call Body) : Option BudgetKind :=
  if call.released.any fun release ↦ release.tookBack = some true then none else call.place

/-- A call is answered once its row was handed in. -/
def answered (call : Call Body) : Bool :=
  match call.stage with
  | .ended _ _ recorded => recorded.isSome
  | _ => false

/-- The place was admitted after the wait for it had ended, and the call has heard of it. -/
def AdmittedTooLate (call : Call Body) : Prop :=
  ∃ problem kind recorded, call.stage = .ended problem (.gaveUp kind (some .admitted) true) recorded

/-- The tool ended with a client error, and the call had a place. -/
def RefusedAtItsPlace (call : Call Body) : Prop :=
  ∃ problem running recorded, call.stage = .ended problem (.ran running) recorded ∧
    running.place.isSome ∧ changedNothing problem

end Call

variable {limits : BudgetLimits} {params : ToolCall Input Body} {call : Call Body}
  {budget : MemoryWriteBudget}

/-- A tool that runs has the place that its call asked for, and its program accounts for what it
may have changed; one without a place makes no request. -/
structure Running.Accounted (params : ToolCall Input Body) (running : Running Body) : Prop where
  place : ∀ kind ∈ running.place, spendOf params.tool params.input = .kind kind
  accounts : params.tool.access = .write → running.program.Accounts running.changed
  unplaced : params.tool.access = .write → running.place = none →
    ∃ result, running.program = .done result ∧ running.changed = false

/-- A place of the kind was given back once. -/
def GaveBack (kind : BudgetKind) (released : List Release) : Prop :=
  ∃ tookBack, released = [⟨kind, tookBack⟩]

/-- The places a call gave back, and its rows, at each stage. -/
def Call.Accounted (params : ToolCall Input Body) (call : Call Body) : Prop :=
  match call.stage with
  | .starting => call.released = [] ∧ call.records = []
  | .reserving kind _ => call.released = [] ∧ call.records = [] ∧
      spendOf params.tool params.input = .kind kind
  | .executing running => call.released = [] ∧ call.records = [] ∧ running.Accounted params
  | .ended problem ending recorded =>
    (call.records.length = if recorded.isSome then 1 else 0) ∧
      match ending with
      | .refused => call.released = []
      | .gaveUp kind admission true => admission = some .admitted ∧ GaveBack kind call.released
      | .gaveUp _ _ false => call.released = []
      | .ran running => running.Accounted params ∧
          if changedNothing problem then
            (∃ result, running.program = .done result ∧
              (params.tool.access = .write → running.changed = false)) ∧
            match running.place with
            | none => call.released = []
            | some kind => GaveBack kind call.released
          else call.released = []

namespace Running

variable {running : Running Body}

theorem Accounted.answers (h : running.Accounted params) (answer : CallerAnswer Body) :
    (running.answers answer).Accounted params := by
  obtain ⟨place, program, changed⟩ := running
  cases program with
  | done => exact h
  | call =>
    refine ⟨h.place, fun haccess ↦ h.accounts haccess answer, fun haccess hplace ↦ ?_⟩
    obtain ⟨result, hdone, -⟩ := h.unplaced haccess hplace
    exact nomatch hdone

@[simp]
theorem place_answers (running : Running Body) (answer : CallerAnswer Body) :
    (running.answers answer).place = running.place := by
  unfold answers
  split <;> rfl

end Running

namespace Call

variable {place : Option BudgetKind}

theorem accounted_running (params : ToolCall Input Body)
    (hplace : ∀ kind ∈ place, spendOf params.tool params.input = .kind kind)
    (hnothing : place = none → spendOf params.tool params.input = .nothing) :
    (⟨place, params.tool.run params.input, false⟩ : Running Body).Accounted params where
  place := hplace
  accounts := fun haccess ↦ accounts_tool params.definition haccess params.input
  unplaced := by
    intro haccess hnone
    obtain ⟨result, hdone⟩ := done_of_spendOf_nothing params.definition haccess (hnothing hnone)
    exact ⟨result, hdone, rfl⟩

theorem accounted_starts (params : ToolCall Input Body) :
    (⟨starts params, [], []⟩ : Call Body).Accounted params := by
  unfold starts
  split
  next => exact ⟨rfl, rfl⟩
  next =>
    cases hspend : spendOf params.tool params.input with
    | nothing => exact ⟨rfl, rfl, accounted_running params nofun fun _ ↦ hspend⟩
    | undeclared => exact ⟨rfl, rfl⟩
    | kind => exact ⟨rfl, rfl, hspend⟩

variable {kind : BudgetKind}

theorem accounted_hears
    (hspend : spendOf params.tool params.input = .kind kind) (admission : Admission) :
    (⟨hears params kind admission, [], []⟩ : Call Body).Accounted params := by
  match admission with
  | .admitted =>
    refine ⟨rfl, rfl, accounted_running params ?_ nofun⟩
    rintro _ ⟨⟩
    exact hspend
  | .full => exact ⟨rfl, rfl⟩
  | .failed (.problem _) => exact ⟨rfl, rfl⟩
  | .failed .other => exact ⟨rfl, rfl⟩

theorem changedNothing_ok (data : ToolData) : changedNothing (problemOfRun (.ok data)) = false := by
  by_cases hlarge : RESULT_CAP < data.byteLength
  · simp only [problemOfRun, runTool, if_pos hlarge]
    rfl
  · simp only [problemOfRun, runTool, if_neg hlarge]
    rfl

/-- A tool that comes to its end with a client error changed nothing. -/
theorem accounted_ends {result : Except Thrown ToolData}
    {changed : Bool} (h : (⟨place, .done result, changed⟩ : Running Body).Accounted params) :
    ((⟨.executing ⟨place, .done result, changed⟩, [], []⟩ : Call Body).ends
      ⟨place, .done result, changed⟩ (problemOfRun result)).Accounted params := by
  have hchanged : changedNothing (problemOfRun result) → params.tool.access = .write →
      changed = false := by
    intro hnothing haccess
    have haccounts := h.accounts haccess
    match result with
    | .error (.problem problem) => exact haccounts hnothing
    | .error .zodError => exact absurd hnothing (by decide)
    | .error .other => exact absurd hnothing (by decide)
    | .ok data => exact absurd hnothing (by simp [changedNothing_ok])
  by_cases hnothing : changedNothing (problemOfRun result) = true
  · cases place with
    | none =>
      refine ⟨rfl, h, ?_⟩
      rw [if_pos hnothing]
      exact ⟨⟨result, rfl, hchanged hnothing⟩, rfl⟩
    | some =>
      unfold ends
      simp only [if_pos hnothing]
      refine ⟨rfl, h, ?_⟩
      rw [if_pos hnothing]
      exact ⟨⟨result, rfl, hchanged hnothing⟩, none, rfl⟩
  · have hends : (⟨.executing ⟨place, .done result, changed⟩, [], []⟩ : Call Body).ends
        ⟨place, .done result, changed⟩ (problemOfRun result) =
        ⟨.ended (problemOfRun result) (.ran ⟨place, .done result, changed⟩) none, [], []⟩ := by
      unfold ends
      cases place with
      | none => rfl
      | some => exact if_neg hnothing
    rw [hends]
    refine ⟨rfl, h, ?_⟩
    rw [if_neg hnothing]

theorem GaveBack.releases {stage : Stage Body} {released : List Release}
    {records : List RecordedToolCall} (h : GaveBack kind released) (budget : MemoryWriteBudget)
    (takesBack : Bool) :
    ∃ released', GaveBack kind released' ∧
      ((⟨stage, released, records⟩ : Call Body).releases budget takesBack).1 =
        ⟨stage, released', records⟩ := by
  obtain ⟨tookBack, rfl⟩ := h
  cases tookBack with
  | none => exact ⟨_, ⟨some takesBack, rfl⟩, rfl⟩
  | some tookBack => exact ⟨_, ⟨some tookBack, rfl⟩, rfl⟩

/-- The budget handles a release of a place that was given back, and there is no other. -/
theorem accounted_releases (h : call.Accounted params) (takesBack : Bool) :
    (call.releases budget takesBack).1.Accounted params := by
  obtain ⟨stage, released, records⟩ := call
  match stage with
  | .starting =>
    obtain ⟨rfl, -⟩ := id h
    exact h
  | .reserving kind admission =>
    obtain ⟨rfl, -⟩ := id h
    exact h
  | .executing running =>
    obtain ⟨rfl, -⟩ := id h
    exact h
  | .ended problem .refused recorded =>
    obtain ⟨-, rfl⟩ := id h
    exact h
  | .ended problem (.gaveUp kind admission false) recorded =>
    obtain ⟨-, rfl⟩ := id h
    exact h
  | .ended problem (.gaveUp kind admission true) recorded =>
    obtain ⟨hrecords, hadmitted, hgave⟩ := h
    obtain ⟨released', hgave', heq⟩ := GaveBack.releases hgave budget takesBack
    rw [heq]
    exact ⟨hrecords, hadmitted, hgave'⟩
  | .ended problem (.ran ⟨place, program, changed⟩) recorded =>
    obtain ⟨hrecords, hrunning, hplace⟩ := id h
    by_cases hnothing : changedNothing problem = true
    · rw [if_pos hnothing] at hplace
      obtain ⟨hdone, hplace⟩ := hplace
      cases place with
      | none =>
        obtain rfl := hplace
        exact h
      | some =>
        obtain ⟨released', hgave', heq⟩ := GaveBack.releases hplace budget takesBack
        rw [heq]
        refine ⟨hrecords, hrunning, ?_⟩
        rw [if_pos hnothing]
        exact ⟨hdone, hgave'⟩
    · rw [if_neg hnothing] at hplace
      obtain rfl := hplace
      exact h

/-- Every step leaves a call accounted for. -/
theorem accounted_step (h : call.Accounted params) (e : CallEvent Body) :
    (call.step limits params budget e).1.Accounted params := by
  obtain ⟨stage, released, records⟩ := call
  unfold step
  split <;> rename_i heq <;> try subst heq
  next =>
    obtain ⟨rfl, rfl⟩ := h
    exact accounted_starts params
  next kind failure => exact h
  next kind admission =>
    obtain ⟨rfl, rfl, hspend⟩ := h
    exact accounted_hears hspend admission
  next kind admission =>
    obtain ⟨rfl, rfl, -⟩ := h
    exact ⟨rfl, rfl⟩
  next running answer => exact ⟨h.1, h.2.1, h.2.2.answers answer⟩
  next place result changed =>
    obtain ⟨rfl, rfl, hrunning⟩ := h
    exact accounted_ends hrunning
  next running =>
    obtain ⟨rfl, rfl, hrunning⟩ := h
    refine ⟨rfl, hrunning, ?_⟩
    rw [if_neg (by cases params.tool.access <;> decide)]
  next problem kind heard recorded failure =>
    obtain ⟨hrecords, hheard⟩ := h
    cases heard with
    | true => exact nomatch hheard.1
    | false => exact ⟨hrecords, hheard⟩
  next problem kind recorded =>
    obtain ⟨hrecords, rfl⟩ := h
    exact ⟨hrecords, rfl, none, rfl⟩
  next problem running recorded answer =>
    obtain ⟨hrecords, hrunning, hplace⟩ := h
    refine ⟨hrecords, hrunning.answers answer, ?_⟩
    by_cases hnothing : changedNothing problem = true
    · -- A tool that came to its end waits for no answer.
      rw [if_pos hnothing] at hplace
      obtain ⟨⟨result, hdone, -⟩, -⟩ := id hplace
      have hsame : running.answers answer = running := by
        unfold Running.answers
        rw [hdone]
      rw [if_pos hnothing, hsame]
      exact hplace
    · rw [if_neg hnothing] at hplace ⊢
      exact hplace
  next problem ending written =>
    obtain ⟨hrecords, hending⟩ := h
    refine ⟨?_, hending⟩
    rw [List.length_cons, hrecords]
    rfl
  next => exact accounted_releases h _
  next => exact h

/-- A place that was given back is the call's. -/
theorem Accounted.released (h : call.Accounted params) :
    call.released = [] ∨ ∃ kind ∈ call.place, GaveBack kind call.released := by
  obtain ⟨stage, released, records⟩ := call
  match stage with
  | .starting => exact .inl h.1
  | .reserving kind admission => exact .inl h.1
  | .executing running => exact .inl h.1
  | .ended problem .refused recorded => exact .inl h.2
  | .ended problem (.gaveUp kind admission false) recorded => exact .inl h.2
  | .ended problem (.gaveUp kind admission true) recorded =>
    obtain ⟨-, rfl, hgave⟩ := h
    exact .inr ⟨kind, rfl, hgave⟩
  | .ended problem (.ran ⟨place, program, changed⟩) recorded =>
    obtain ⟨-, -, hplace⟩ := h
    by_cases hnothing : changedNothing problem = true
    · rw [if_pos hnothing] at hplace
      cases place with
      | none => exact .inl hplace.2
      | some kind => exact .inr ⟨kind, rfl, hplace.2⟩
    · rw [if_neg hnothing] at hplace
      exact .inl hplace

/-- The call ended without an answer of the admin API: it was given up on, its request was sent
and not answered, or something unexpected was thrown. -/
def FailedOrUnknown (call : Call Body) : Prop :=
  ∃ problem running recorded, call.stage = .ended (some problem) (.ran running) recorded ∧
    (problem.problemType = "mcp:outcome_unknown" ∨ (∃ access, problem = timedOut access) ∨
      (∃ how : Lost, how.thrown = .problem problem) ∨ problem = internalError)

/-- What is promised of the place of a call and of its rows. -/
structure Exact (params : ToolCall Input Body) (call : Call Body) : Prop where
  /-- The place of a write that may have changed something is spent, and stays so. -/
  kept : params.tool.access = .write → call.mayHaveChanged = true →
    call.place.isSome ∧ call.spent = call.place ∧ call.released = []
  once : call.released = [] ∨ ∃ kind ∈ call.place, GaveBack kind call.released
  given : call.released ≠ [] ↔ call.AdmittedTooLate ∨ call.RefusedAtItsPlace
  unknown : call.FailedOrUnknown → call.released = []
  recorded : call.records.length = if call.answered then 1 else 0

theorem changedNothing_unknown {problem : ToolProblem}
    (h : problem.problemType = "mcp:outcome_unknown" ∨ (∃ access, problem = timedOut access) ∨
      (∃ how : Lost, how.thrown = .problem problem) ∨ problem = internalError) :
    changedNothing (some problem) = false := by
  rcases h with hunknown | ⟨access, rfl⟩ | ⟨how, hhow⟩ | rfl
  · simp [changedNothing, hunknown]
  · cases access <;> decide
  · cases how <;> cases hhow <;> decide
  · decide

theorem spent_of_released {call : Call Body} (h : call.released = []) :
    call.spent = call.place := by
  rw [spent, h]
  rfl

/-- A write tool that may have changed something runs at a place. -/
theorem place_of_mayHaveChanged {params : ToolCall Input Body} {running : Running Body}
    (h : running.Accounted params) (haccess : params.tool.access = .write)
    (hchanged : running.mayHaveChanged = true) : running.place.isSome := by
  rw [Option.isSome_iff_ne_none]
  intro hplace
  obtain ⟨result, hdone, hnothing⟩ := h.unplaced haccess hplace
  simp [Running.mayHaveChanged, hdone, hnothing] at hchanged

theorem kept_of_accounted (h : call.Accounted params) (haccess : params.tool.access = .write)
    (hchanged : call.mayHaveChanged = true) : call.place.isSome ∧ call.released = [] := by
  obtain ⟨stage, released, records⟩ := call
  match stage with
  | .executing running => exact ⟨place_of_mayHaveChanged h.2.2 haccess hchanged, h.1⟩
  | .ended problem (.ran running) recorded =>
    obtain ⟨-, hrunning, hplace⟩ := h
    refine ⟨place_of_mayHaveChanged hrunning haccess hchanged, ?_⟩
    by_cases hnothing : changedNothing problem = true
    · rw [if_pos hnothing] at hplace
      obtain ⟨⟨result, hdone, hkept⟩, -⟩ := hplace
      have hrunning : running.mayHaveChanged = true := hchanged
      simp [Running.mayHaveChanged, hdone, hkept haccess] at hrunning
    · rw [if_neg hnothing] at hplace
      exact hplace

/-- A call gave its place back where nothing was changed, and nowhere else. -/
theorem given_iff (h : call.Accounted params) :
    call.released ≠ [] ↔ call.AdmittedTooLate ∨ call.RefusedAtItsPlace := by
  obtain ⟨stage, released, records⟩ := call
  constructor
  · intro hreleased
    match stage with
    | .starting => exact absurd h.1 hreleased
    | .reserving kind admission => exact absurd h.1 hreleased
    | .executing running => exact absurd h.1 hreleased
    | .ended problem .refused recorded => exact absurd h.2 hreleased
    | .ended problem (.gaveUp kind admission false) recorded => exact absurd h.2 hreleased
    | .ended problem (.gaveUp kind admission true) recorded =>
      obtain ⟨-, rfl, -⟩ := h
      exact .inl ⟨problem, kind, recorded, rfl⟩
    | .ended problem (.ran running) recorded =>
      obtain ⟨-, -, hplace⟩ := h
      by_cases hnothing : changedNothing problem = true
      · rw [if_pos hnothing] at hplace
        refine .inr ⟨problem, running, recorded, rfl, ?_, hnothing⟩
        rw [Option.isSome_iff_ne_none]
        intro hnone
        rw [hnone] at hplace
        exact hreleased hplace.2
      · rw [if_neg hnothing] at hplace
        exact absurd hplace hreleased
  · have hgave : ∀ {kind : BudgetKind}, GaveBack kind released → released ≠ [] := by
      rintro kind ⟨tookBack, rfl⟩
      exact nofun
    rintro (⟨problem, kind, recorded, hstage⟩ | ⟨problem, running, recorded, hstage, hplace,
      hnothing⟩)
    · obtain rfl : stage = _ := hstage
      exact hgave h.2.2
    · obtain rfl : stage = _ := hstage
      obtain ⟨-, -, hback⟩ := h
      rw [if_pos hnothing] at hback
      obtain ⟨kind, hkind⟩ := Option.isSome_iff_exists.mp hplace
      rw [hkind] at hback
      exact hgave hback.2

theorem exact_of_accounted (h : call.Accounted params) : call.Exact params where
  kept := by
    intro haccess hchanged
    obtain ⟨hplace, hreleased⟩ := kept_of_accounted h haccess hchanged
    exact ⟨hplace, spent_of_released hreleased, hreleased⟩
  once := h.released
  given := given_iff h
  unknown := by
    rintro ⟨problem, running, recorded, hstage, hproblem⟩
    obtain ⟨stage, released, records⟩ := call
    obtain rfl : stage = _ := hstage
    obtain ⟨-, -, hback⟩ := h
    rw [if_neg (by rw [changedNothing_unknown hproblem]; exact Bool.false_ne_true)] at hback
    exact hback
  recorded := by
    obtain ⟨stage, released, records⟩ := call
    cases stage with
    | starting => exact congrArg List.length h.2
    | reserving | executing => exact congrArg List.length h.2.1
    | ended => exact h.1

end Call

end Odudu.Mcp.WriteBudgets
