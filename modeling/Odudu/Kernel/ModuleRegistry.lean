import Mathlib.Data.List.Perm.Subperm
import Odudu.Graphs.Acyclic

/-!
# The module registry

`kernel/src/registry.ts`: modules registered by name, started in the order of a depth-first
search of their dependencies, and stopped in reverse, also when a start fails halfway.

What a module's `start` and `stop` come to is the module's own: they are given what has been
called before, so that a module may fail at one call and not at another.  The context, the
logger and the clock are left out.
-/

set_option autoImplicit false

namespace Odudu.Kernel

open Graphs Relation

/-- A call of a module's `start` or `stop`. -/
inductive Call where
  | start (name : String)
  | stop (name : String)

/-- What a call comes to, after the calls made before it. -/
abbrev Hook (E : Type) : Type := List Call → Except E Unit

structure OduduModule (E : Type) where
  name : String
  dependsOn : Option (List String)
  start : Option (Hook E)
  stop : Option (Hook E)

inductive Failure (E : Type) where
  /-- `new OduduError(code, message)`. -/
  | odudu (code message : String)
  /-- What a module threw. -/
  | thrown (error : E)
  /-- `new OduduError(code, message, { cause: new AggregateError(failures) })`. -/
  | stops (code message : String) (failures : List E)
  /-- `new Error(message, { cause: new AggregateError([error, stopError]) })`. -/
  | rollback (message : String) (error stopError : Failure E)

section Modules

variable {E : Type}

namespace OduduModule

/-- `module.dependsOn ?? []`. -/
def dependencies (module : OduduModule E) : List String := module.dependsOn.getD []

/-- `await module.start?.(ctx)`. -/
def runStart (module : OduduModule E) (past : List Call) : Except E Unit :=
  match module.start with
  | none => .ok ()
  | some hook => hook past

/-- `await module.stop?.()`. -/
def runStop (module : OduduModule E) (past : List Call) : Except E Unit :=
  match module.stop with
  | none => .ok ()
  | some hook => hook past

end OduduModule

/-! ### The order of the modules -/

inductive Mark where
  | visiting
  | done

/-- What a search has marked, and the modules it is done with. -/
structure Search (E : Type) where
  state : String → Option Mark
  ordered : List (OduduModule E)

/-- One visit after another, until one throws. -/
def visitAll (visit : String → Search E → Option (Except (Failure E) (Search E))) :
    List String → Search E → Option (Except (Failure E) (Search E))
  | [], search => some (.ok search)
  | name :: rest, search =>
    match visit name search with
    | some (.ok search) => visitAll visit rest search
    | stopped => stopped

def cycleFailure (trail : List String) (name : String) : Failure E :=
  let fullTrail := trail ++ [name]
  .odudu "module_cycle"
    ("Module dependency cycle: " ++ " -> ".intercalate (fullTrail.dropWhile (· ≠ name)))

def unknownFailure (trail : List String) (name : String) : Failure E :=
  .odudu "module_unknown_dependency"
    ("Module \"" ++ trail.getLast?.getD name ++ "\" depends on unregistered module \"" ++ name
      ++ "\"")

/-- `visit`, to a depth: nothing when the depth does not suffice. -/
def visit (modules : List (OduduModule E)) :
    ℕ → List String → String → Search E → Option (Except (Failure E) (Search E))
  | 0, _, _, _ => none
  | depth + 1, trail, name, search =>
    match search.state name with
    | some .done => some (.ok search)
    | some .visiting => some (.error (cycleFailure trail name))
    | none =>
      match modules.find? (·.name = name) with
      | none => some (.error (unknownFailure trail name))
      | some module =>
        match visitAll (visit modules depth (trail ++ [name])) module.dependencies
          { search with state := Function.update search.state name (some .visiting) } with
        | some (.ok search) =>
          some (.ok
            { state := Function.update search.state name (some .done)
              ordered := search.ordered ++ [module] })
        | stopped => stopped

/-- The search from every module in turn, as deep as there are modules. -/
def searchAll (modules : List (OduduModule E)) : Option (Except (Failure E) (Search E)) :=
  visitAll (visit modules (modules.length + 1) []) (modules.map (·.name))
    { state := fun _ ↦ none, ordered := [] }

/-! ### What a search finds -/

def names (modules : List (OduduModule E)) : List String := modules.map (·.name)

/-- A registered module names the other among its dependencies. -/
def DependsOn (modules : List (OduduModule E)) (a b : String) : Prop :=
  ∃ module ∈ modules, module.name = a ∧ b ∈ module.dependencies

/-- There is a cycle, or a dependency on a module that is not registered. -/
def Broken (modules : List (OduduModule E)) : Prop :=
  (∃ name, TransGen (DependsOn modules) name name) ∨
    ∃ a b, DependsOn modules a b ∧ b ∉ names modules

/-- A failure names a cycle that is there, or a dependency on an unregistered module. -/
inductive Explained (modules : List (OduduModule E)) : Failure E → Prop where
  | cycle {trail : List String} {name : String} (h : TransGen (DependsOn modules) name name) :
      Explained modules (cycleFailure trail name)
  | unknown {trail : List String} {a name : String} (h : DependsOn modules a name)
      (hname : name ∉ names modules) : Explained modules (unknownFailure (trail ++ [a]) name)

/-- A trail of dependencies, from a registered module to the name visited. -/
inductive Leads (modules : List (OduduModule E)) : List String → String → Prop where
  | root {name : String} (h : name ∈ names modules) : Leads modules [] name
  | step {trail : List String} {a name : String} (h : Leads modules trail a)
      (hedge : DependsOn modules a name) : Leads modules (trail ++ [a]) name

/-- What is being visited is the trail, and what is done stands in topological order. -/
structure Consistent (modules : List (OduduModule E)) (trail : List String) (search : Search E) :
    Prop where
  visiting : ∀ name, search.state name = some .visiting ↔ name ∈ trail
  done : ∀ name, search.state name = some .done ↔ name ∈ names search.ordered
  registered : search.ordered ⊆ modules
  topological : Topological (DependsOn modules) (names search.ordered)

/-- How far a visit may have changed a search. -/
structure Visited (modules : List (OduduModule E)) (trail visits : List String)
    (search search' : Search E) : Prop where
  consistent : Consistent modules trail search'
  kept : ∀ name, search.state name = some .done → search'.state name = some .done
  done : ∀ name ∈ visits, search'.state name = some .done

/-- What visits come to: they end, and what they throw is explained. -/
def Settles (modules : List (OduduModule E)) (trail visits : List String) (search : Search E) :
    Option (Except (Failure E) (Search E)) → Prop
  | none => False
  | some (.error failure) => Explained modules failure
  | some (.ok search') => Visited modules trail visits search search'

variable {modules : List (OduduModule E)} {trail : List String} {name : String}
  {search search' : Search E}

theorem Explained.broken {failure : Failure E} (h : Explained modules failure) :
    Broken modules := by
  cases h with
  | cycle h => exact Or.inl ⟨_, h⟩
  | unknown h hname => exact Or.inr ⟨_, _, h, hname⟩

/-- What stands on a trail leads to the name visited. -/
theorem Leads.transGen (h : Leads modules trail name) :
    ∀ a ∈ trail, TransGen (DependsOn modules) a name := by
  induction h with
  | root => exact fun a ha ↦ absurd ha List.not_mem_nil
  | step _ hedge ih =>
    intro a ha
    rcases List.mem_append.mp ha with hold | hlast
    · exact (ih a hold).tail hedge
    · rw [List.mem_singleton.mp hlast]
      exact .single hedge

/-- A trail to an unregistered name ends at a module that depends on it. -/
theorem Leads.explained (h : Leads modules trail name) (hname : name ∉ names modules) :
    Explained modules (unknownFailure trail name) := by
  cases h with
  | root h => exact absurd h hname
  | step _ hedge => exact .unknown hedge hname

theorem find_registered (h : name ∈ names modules) :
    ∃ module ∈ modules, module.name = name ∧ modules.find? (·.name = name) = some module := by
  cases hfind : modules.find? (·.name = name) with
  | none =>
    obtain ⟨module, hmodule, rfl⟩ := List.mem_map.mp h
    have hnot := List.find?_eq_none.mp hfind module hmodule
    exact absurd (decide_eq_true rfl) hnot
  | some module =>
    exact ⟨module, List.mem_of_find?_eq_some hfind, by simpa using List.find?_some hfind, rfl⟩

/-- Visits that each settle settle one after another. -/
theorem settles_visitAll {visit : String → Search E → Option (Except (Failure E) (Search E))}
    {visits : List String} (hconsistent : Consistent modules trail search)
    (hvisit : ∀ name ∈ visits, ∀ search, Consistent modules trail search →
      Settles modules trail [name] search (visit name search)) :
    Settles modules trail visits search (visitAll visit visits search) := by
  induction visits generalizing search with
  | nil => exact ⟨hconsistent, fun _ h ↦ h, fun name h ↦ absurd h List.not_mem_nil⟩
  | cons name rest ih =>
    have hfirst := hvisit name List.mem_cons_self search hconsistent
    unfold visitAll
    cases hresult : visit name search with
    | none =>
      rw [hresult] at hfirst
      exact hfirst
    | some result =>
      rw [hresult] at hfirst
      cases result with
      | error => exact hfirst
      | ok next =>
        have hrest := ih hfirst.consistent
          fun other hother ↦ hvisit other (List.mem_cons_of_mem _ hother)
        change Settles modules trail (name :: rest) search (visitAll visit rest next)
        cases hall : visitAll visit rest next with
        | none =>
          rw [hall] at hrest
          exact hrest
        | some result =>
          rw [hall] at hrest
          cases result with
          | error => exact hrest
          | ok =>
            refine ⟨hrest.consistent, fun other h ↦ hrest.kept other (hfirst.kept other h), ?_⟩
            intro other hother
            rcases List.mem_cons.mp hother with rfl | hmem
            · exact hrest.kept other (hfirst.done other List.mem_cons_self)
            · exact hrest.done other hmem

/-- A name that is not marked is put on the trail. -/
theorem Consistent.begin (h : Consistent modules trail search) (hname : search.state name = none) :
    Consistent modules (trail ++ [name])
      { search with state := Function.update search.state name (some .visiting) } where
  visiting := by
    intro other
    by_cases heq : other = name
    · simp [heq]
    · simp [h.visiting, heq]
  done := by
    intro other
    by_cases heq : other = name
    · have hnot : name ∉ names search.ordered := by
        rw [← h.done, hname]
        exact nofun
      simp [heq, hnot]
    · simpa [Function.update_of_ne heq] using h.done other
  registered := h.registered
  topological := h.topological

/-- A name whose dependencies are done is taken off the trail. -/
theorem Consistent.finish {module : OduduModule E}
    (h : Consistent modules (trail ++ [name]) search) (htrail : name ∉ trail)
    (hmodule : module ∈ modules) (hname : module.name = name)
    (hdone : ∀ b, DependsOn modules name b → search.state b = some .done) :
    Consistent modules trail
      { state := Function.update search.state name (some .done)
        ordered := search.ordered ++ [module] } where
  visiting := by
    intro other
    by_cases heq : other = name
    · simp [heq, htrail]
    · simp [h.visiting, heq]
  done := by
    intro other
    by_cases heq : other = name
    · simp [heq, names, hname]
    · simp [h.done, names, hname, heq]
  registered := by
    intro other hother
    rcases List.mem_append.mp hother with hold | hlast
    · exact h.registered hold
    · rw [List.mem_singleton.mp hlast]
      exact hmodule
  topological := by
    have hnew : name ∉ names search.ordered := by
      rw [← h.done, (h.visiting name).mpr (by simp)]
      simp
    have hconcat := h.topological.concat hnew fun b hb ↦ (h.done b).mp (hdone b hb)
    simpa [names, hname] using hconcat

/-- A visit with depth enough for what is not on the trail settles. -/
theorem settles_visit {depth : ℕ} (hunique : (names modules).Nodup)
    (hleads : Leads modules trail name) (hnodup : trail.Nodup)
    (hsubset : trail ⊆ names modules) (hdepth : modules.length < trail.length + depth)
    (hconsistent : Consistent modules trail search) :
    Settles modules trail [name] search (visit modules depth trail name search) := by
  induction depth generalizing trail name search with
  | zero =>
    have hle : trail.length ≤ modules.length := by
      have hperm := (hnodup.subperm hsubset).length_le
      rwa [names, List.length_map] at hperm
    omega
  | succ depth ih =>
    unfold visit
    cases hstate : search.state name with
    | some mark =>
      cases mark with
      | done =>
        refine ⟨hconsistent, fun _ h ↦ h, fun other hother ↦ ?_⟩
        rw [List.mem_singleton.mp hother]
        exact hstate
      | visiting => exact .cycle (hleads.transGen name ((hconsistent.visiting name).mp hstate))
    | none =>
      by_cases hname : name ∈ names modules
      · obtain ⟨module, hmodule, hmname, hfind⟩ := find_registered hname
        rw [hfind]
        have htrail : name ∉ trail := by
          rw [← hconsistent.visiting, hstate]
          exact nofun
        have hedge : ∀ dependency ∈ module.dependencies, DependsOn modules name dependency :=
          fun dependency hdependency ↦ ⟨module, hmodule, hmname, hdependency⟩
        have hnodup' : (trail ++ [name]).Nodup := by
          rw [List.nodup_append]
          refine ⟨hnodup, List.nodup_singleton _, fun a ha b hb ↦ ?_⟩
          rw [List.mem_singleton.mp hb]
          exact fun heq ↦ htrail (heq ▸ ha)
        have hvisits : ∀ dependency ∈ module.dependencies, ∀ other,
            Consistent modules (trail ++ [name]) other →
              Settles modules (trail ++ [name]) [dependency] other
                (visit modules depth (trail ++ [name]) dependency other) :=
          fun dependency hdependency other hother ↦
            ih (hleads.step (hedge dependency hdependency)) hnodup'
              (List.append_subset.mpr ⟨hsubset, by simpa using hname⟩)
              (by rw [List.length_append, List.length_singleton]; omega) hother
        have hall := settles_visitAll (hconsistent.begin hstate) hvisits
        change Settles modules trail [name] search
          (match visitAll (visit modules depth (trail ++ [name])) module.dependencies _ with
          | some (.ok search) => some (.ok _)
          | stopped => stopped)
        cases hresult : visitAll (visit modules depth (trail ++ [name])) module.dependencies
            { search with state := Function.update search.state name (some .visiting) } with
        | none =>
          rw [hresult] at hall
          exact hall
        | some result =>
          rw [hresult] at hall
          cases result with
          | error => exact hall
          | ok next =>
            have hnext : next.state name = some .visiting :=
              (hall.consistent.visiting name).mpr (by simp)
            have hdone : ∀ b, DependsOn modules name b → next.state b = some .done := by
              rintro b ⟨other, hother, hsame, hb⟩
              rw [List.inj_on_of_nodup_map hunique hother hmodule (hsame.trans hmname.symm)] at hb
              exact hall.done b hb
            refine ⟨hall.consistent.finish htrail hmodule hmname hdone, fun other h ↦ ?_, ?_⟩
            · by_cases heq : other = name
              · simp [heq]
              · have hkept := hall.kept other (by simpa [Function.update_of_ne heq] using h)
                simpa [Function.update_of_ne heq] using hkept
            · intro other hother
              simp [List.mem_singleton.mp hother]
      · have hnone : modules.find? (·.name = name) = none := by
          refine List.find?_eq_none.mpr fun module hmodule ↦ ?_
          simpa using fun heq ↦ hname (List.mem_map.mpr ⟨module, hmodule, heq⟩)
        rw [hnone]
        exact hleads.explained hname

theorem consistent_start :
    Consistent modules [] { state := fun _ ↦ none, ordered := [] } where
  visiting := by simp
  done := by simp [names]
  registered := List.nil_subset _
  topological := .nil

theorem settles_searchAll (hunique : (names modules).Nodup) :
    Settles modules [] (names modules) { state := fun _ ↦ none, ordered := [] }
      (searchAll modules) :=
  settles_visitAll consistent_start fun _ hname _ hsearch ↦
    settles_visit hunique (.root hname) List.nodup_nil (List.nil_subset _)
      (by rw [List.length_nil]; omega) hsearch

theorem isSome_searchAll (hunique : (names modules).Nodup) : (searchAll modules).isSome := by
  have hsettles := settles_searchAll hunique
  cases hresult : searchAll modules with
  | none =>
    rw [hresult] at hsettles
    exact hsettles.elim
  | some => rfl

end Modules

/-! ### The registry -/

/-- Modules under names of their own, in the order in which they were registered. -/
structure ModuleRegistry (E : Type) where
  modules : List (OduduModule E)
  started : List (OduduModule E)
  nodup : (names modules).Nodup

/-- What a call of the registry has come to, and the calls of modules it made. -/
structure Run (E : Type) where
  registry : ModuleRegistry E
  calls : List Call
  outcome : Except (Failure E) Unit

variable {E : Type}

/-- Each module in turn, and what those that failed threw. -/
def stopAll : List Call → List (OduduModule E) → List Call × List E
  | _, [] => ([], [])
  | past, module :: rest =>
    let stopped := stopAll (past ++ [.stop module.name]) rest
    (.stop module.name :: stopped.1,
      match module.runStop past with
      | .ok () => stopped.2
      | .error error => error :: stopped.2)

namespace ModuleRegistry

/-- `#resolveOrder`. -/
def resolveOrder (registry : ModuleRegistry E) : Except (Failure E) (List (OduduModule E)) :=
  ((searchAll registry.modules).get (isSome_searchAll registry.nodup)).map (·.ordered)

def stop (registry : ModuleRegistry E) (past : List Call) : Run E :=
  let stopped := stopAll past registry.started.reverse
  { registry := { registry with started := [] }
    calls := stopped.1
    outcome :=
      match stopped.2 with
      | [] => .ok ()
      | failures =>
        .error (.stops "module_stop_failed"
          (toString failures.length ++ " module(s) failed to stop") failures) }

/-- The modules in turn, until one throws. -/
def startAll : List Call → ModuleRegistry E → List (OduduModule E) → Run E
  | _, registry, [] => { registry := registry, calls := [], outcome := .ok () }
  | past, registry, module :: rest =>
    match module.runStart past with
    | .error error =>
      { registry := registry, calls := [.start module.name], outcome := .error (.thrown error) }
    | .ok () =>
      let run := startAll (past ++ [.start module.name])
        { registry with started := registry.started ++ [module] } rest
      { run with calls := .start module.name :: run.calls }

/-- The modules in their order, and those that started stopped again where anything throws. -/
def start (registry : ModuleRegistry E) (past : List Call) : Run E :=
  let attempt : Run E :=
    match registry.resolveOrder with
    | .error failure => { registry := registry, calls := [], outcome := .error failure }
    | .ok order => startAll past registry order
  match attempt.outcome with
  | .ok () => attempt
  | .error failure =>
    let rollback := attempt.registry.stop (past ++ attempt.calls)
    { registry := rollback.registry
      calls := attempt.calls ++ rollback.calls
      outcome :=
        match rollback.outcome with
        | .ok () => .error failure
        | .error stopError =>
          .error (.rollback "start failed, and rollback also failed" failure stopError) }

end ModuleRegistry

/-! ### Starting and rolling back -/

def starts (modules : List (OduduModule E)) : List Call := (names modules).map .start

def stops (modules : List (OduduModule E)) : List Call := (names modules).map .stop

/-- Every module of a list starts, each after those before it. -/
def AllStart (past : List Call) (modules : List (OduduModule E)) : Prop :=
  ∀ before module after, modules = before ++ module :: after →
    module.runStart (past ++ starts before) = .ok ()

variable {registry : ModuleRegistry E} {order : List (OduduModule E)}

theorem allStart_nil {past : List Call} : AllStart past ([] : List (OduduModule E)) := by
  intro before module after h
  simp at h

theorem allStart_cons {past : List Call} {module : OduduModule E} {rest : List (OduduModule E)}
    (hfirst : module.runStart past = .ok ())
    (hrest : AllStart (past ++ [.start module.name]) rest) : AllStart past (module :: rest) := by
  intro before other after h
  cases before with
  | nil =>
    obtain ⟨rfl, -⟩ := List.cons.inj h
    simpa [starts, names] using hfirst
  | cons _ before =>
    obtain ⟨rfl, htail⟩ := List.cons.inj h
    have hother := hrest before other after htail
    simpa [starts, names] using hother

/-- Every module is stopped in its turn, whatever a stop comes to. -/
theorem stopAll_calls (past : List Call) (modules : List (OduduModule E)) :
    (stopAll past modules).1 = stops modules := by
  induction modules generalizing past with
  | nil => rfl
  | cons module rest ih =>
    change Call.stop module.name :: (stopAll _ rest).1 = _
    rw [ih]
    rfl

/-- Either all of an order starts, or what stands before the first module that throws. -/
theorem startAll_cases (past : List Call) (registry : ModuleRegistry E)
    (order : List (OduduModule E)) :
    (AllStart past order ∧ ModuleRegistry.startAll past registry order =
        { registry := { registry with started := registry.started ++ order }
          calls := starts order
          outcome := .ok () }) ∨
      ∃ before module after error, order = before ++ module :: after ∧ AllStart past before ∧
        module.runStart (past ++ starts before) = .error error ∧
        ModuleRegistry.startAll past registry order =
          { registry := { registry with started := registry.started ++ before }
            calls := starts (before ++ [module])
            outcome := .error (.thrown error) } := by
  induction order generalizing past registry with
  | nil =>
    refine Or.inl ⟨allStart_nil, ?_⟩
    simp [ModuleRegistry.startAll, starts, names]
  | cons module rest ih =>
    unfold ModuleRegistry.startAll
    cases hstart : module.runStart past with
    | error error =>
      refine Or.inr ⟨[], module, rest, error, rfl, allStart_nil, ?_, ?_⟩
      · simpa [starts, names] using hstart
      · simp [starts, names]
    | ok =>
      rcases ih (past ++ [.start module.name])
          { registry with started := registry.started ++ [module] } with
        ⟨hall, hrun⟩ | ⟨before, failed, after, error, rfl, hall, herror, hrun⟩
      · refine Or.inl ⟨allStart_cons hstart hall, ?_⟩
        simp [hrun, starts, names]
      · refine Or.inr ⟨module :: before, failed, after, error, rfl, allStart_cons hstart hall,
          ?_, ?_⟩
        · simpa [starts, names] using herror
        · simp [hrun, starts, names]

/-- Modules all of which stand in an order after their dependencies have no cycle, and no
dependency that is not registered. -/
theorem not_broken_of_topological {modules : List (OduduModule E)} (hperm : order.Perm modules)
    (htopological : Topological (DependsOn modules) (names order)) : ¬Broken modules := by
  have hmem : ∀ {a b : String}, DependsOn modules a b → a ∈ names order := by
    rintro a b ⟨module, hmodule, rfl, -⟩
    exact List.mem_map.mpr ⟨module, hperm.mem_iff.mpr hmodule, rfl⟩
  rintro (⟨name, hcycle⟩ | ⟨a, b, hedge, hb⟩)
  · obtain ⟨b, hedge, -⟩ := TransGen.head'_iff.mp hcycle
    exact htopological.not_transGen (hmem hedge) hcycle
  · refine hb ?_
    have hafter := htopological.mem_of_transGen (hmem hedge) (.single hedge)
    exact (hperm.map _).mem_iff.mp hafter

/-- The order is of all the modules, each after its dependencies, or there is none. -/
theorem resolveOrder_cases (registry : ModuleRegistry E) :
    (∃ failure, registry.resolveOrder = .error failure ∧ Explained registry.modules failure) ∨
      ∃ order, registry.resolveOrder = .ok order ∧ order.Perm registry.modules ∧
        Topological (DependsOn registry.modules) (names order) := by
  have hsettles := settles_searchAll registry.nodup
  cases hresult : searchAll registry.modules with
  | none =>
    rw [hresult] at hsettles
    exact hsettles.elim
  | some result =>
    rw [hresult] at hsettles
    cases result with
    | error failure =>
      exact Or.inl ⟨failure, by simp [ModuleRegistry.resolveOrder, hresult, Except.map], hsettles⟩
    | ok search =>
      refine Or.inr ⟨search.ordered, by simp [ModuleRegistry.resolveOrder, hresult, Except.map], ?_,
        hsettles.consistent.topological⟩
      have hnodup : search.ordered.Nodup :=
        List.Nodup.of_map _ hsettles.consistent.topological.nodup
      refine (List.perm_ext_iff_of_nodup hnodup (List.Nodup.of_map _ registry.nodup)).mpr
        fun module ↦ ⟨fun h ↦ hsettles.consistent.registered h, fun hmodule ↦ ?_⟩
      have hname : module.name ∈ names registry.modules := List.mem_map_of_mem hmodule
      have hdone := (hsettles.consistent.done _).mp (hsettles.done _ hname)
      obtain ⟨other, hother, hsame⟩ := List.mem_map.mp hdone
      have hregistered := hsettles.consistent.registered hother
      rwa [← List.inj_on_of_nodup_map registry.nodup hregistered hmodule hsame]

/-- What a start comes to when anything throws: everything that has started is stopped. -/
theorem start_of_broken (h : Broken registry.modules) (past : List Call) :
    (registry.start past).calls = stops registry.started.reverse ∧
      ∃ failure, (registry.start past).outcome = .error failure := by
  rcases resolveOrder_cases registry with ⟨failure, hfailure, -⟩ | ⟨order, -, hperm, htop⟩
  · constructor
    · simp [ModuleRegistry.start, hfailure, ModuleRegistry.stop, stopAll_calls]
    · simp only [ModuleRegistry.start, hfailure]
      split
      · exact ⟨_, rfl⟩
      · exact ⟨_, rfl⟩
  · exact absurd h (not_broken_of_topological hperm htop)

/-- Where there is a cycle or an unknown dependency no module is started.  Where there is none
every module is, once and after its dependencies, unless one of them throws: then those that
had started before it are stopped, the last first, whatever their stops come to. -/
theorem start_runs_or_rolls_back (registry : ModuleRegistry E) (past : List Call) :
    (Broken registry.modules →
      (registry.start past).calls = stops registry.started.reverse ∧
        ∃ failure, (registry.start past).outcome = .error failure) ∧
      (¬Broken registry.modules →
        ∃ order : List (OduduModule E), order.Perm registry.modules ∧
          Topological (DependsOn registry.modules) (names order) ∧
          ((AllStart past order ∧ (registry.start past).calls = starts order ∧
              (registry.start past).outcome = .ok () ∧
              (registry.start past).registry.started = registry.started ++ order) ∨
            ∃ before module after error, order = before ++ module :: after ∧
              AllStart past before ∧ module.runStart (past ++ starts before) = .error error ∧
              (registry.start past).calls =
                starts (before ++ [module]) ++ stops (registry.started ++ before).reverse ∧
              (registry.start past).registry.started = [] ∧
              ∃ failure, (registry.start past).outcome = .error failure)) := by
  refine ⟨fun h ↦ start_of_broken h past, fun h ↦ ?_⟩
  rcases resolveOrder_cases registry with ⟨failure, -, hexplained⟩ | ⟨order, horder, hperm, htop⟩
  · exact absurd hexplained.broken h
  · refine ⟨order, hperm, htop, ?_⟩
    rcases startAll_cases past registry order with
      ⟨hall, hrun⟩ | ⟨before, module, after, error, rfl, hall, herror, hrun⟩
    · refine Or.inl ⟨hall, ?_⟩
      simp [ModuleRegistry.start, horder, hrun]
    · refine Or.inr ⟨before, module, after, error, rfl, hall, herror, ?_⟩
      simp only [ModuleRegistry.start, horder, hrun, ModuleRegistry.stop, stopAll_calls]
      refine ⟨trivial, trivial, ?_⟩
      split
      · exact ⟨_, rfl⟩
      · exact ⟨_, rfl⟩

end Odudu.Kernel
