import Odudu.ProtocolOidc.Schema

/-!
# Which step a flow asks for next

`service/requirements.ts`: the executions of a tenant's flow fall into groups, a run of
`alternative` executions being one group, and the next step is the first applicable
member of the first group not satisfied.
-/

set_option autoImplicit false

namespace Odudu.AuthnFlows

open ProtocolOidc

inductive Requirement where
  | required
  | alternative
  | conditional
  | disabled
  deriving DecidableEq

/-- A row of `authentication_executions`, in the order of its index. -/
structure Execution where
  authenticator : AuthenticatorName
  requirement : Requirement

/-- A step of a flow, whatever authenticators are called. -/
structure Step (Name : Type := AuthenticatorName) where
  authenticator : Name
  requirement : Requirement
  applicable : Bool

inductive NextStep (Name : Type := AuthenticatorName) where
  | run (authenticator : Name)
  | complete
  | fail
  deriving DecidableEq

inductive GroupKind where
  | alternative
  | single

structure StepGroup (Name : Type := AuthenticatorName) where
  kind : GroupKind
  members : List (Step Name)

variable {Name : Type}

/-- One step more: a disabled one is as if it were not listed. -/
def groupStep (groups : List (StepGroup Name)) (s : Step Name) :
    List (StepGroup Name) :=
  match s.requirement with
  | .disabled => groups
  | .alternative =>
    match groups.getLast? with
    | some ⟨.alternative, members⟩ => groups.dropLast ++ [⟨.alternative, members ++ [s]⟩]
    | _ => groups ++ [⟨.alternative, [s]⟩]
  | _ => groups ++ [⟨.single, [s]⟩]

def groupSteps (steps : List (Step Name)) : List (StepGroup Name) := steps.foldl groupStep []

/-- `conditional` alone counts as satisfied where it does not apply. -/
def isGroupSatisfied [DecidableEq Name] (group : StepGroup Name) (satisfied : List Name) : Bool :=
  if group.members.any fun m ↦ decide (m.authenticator ∈ satisfied) then true
  else
    match group.kind, group.members with
    | .single, only :: _ => if only.requirement = .required then false else !only.applicable
    | _, _ => false

/-- The first group that is not satisfied decides. -/
def nextOfGroups [DecidableEq Name] (satisfied : List Name) : List (StepGroup Name) → NextStep Name
  | [] => .complete
  | group :: groups =>
    if isGroupSatisfied group satisfied then nextOfGroups satisfied groups
    else
      match group.members.find? fun m ↦ m.applicable with
      | none => .fail
      | some runnable => .run runnable.authenticator

def nextStep [DecidableEq Name] (executions : List (Step Name)) (satisfied : List Name) :
    NextStep Name :=
  match groupSteps executions with
  | [] => .fail
  | groups => nextOfGroups satisfied groups

variable {authenticator : Name}

/-- A step asked for is one no member of whose group is satisfied. -/
theorem nextOfGroups_run [DecidableEq Name] {satisfied : List Name} {groups : List (StepGroup Name)}
    (h : nextOfGroups satisfied groups = .run authenticator) :
    ∃ group ∈ groups, isGroupSatisfied group satisfied = false ∧
      ∃ step ∈ group.members, step.authenticator = authenticator ∧ step.applicable = true := by
  induction groups with
  | nil => simp [nextOfGroups] at h
  | cons group _ ih =>
    rw [nextOfGroups] at h
    split at h
    case isTrue hsatisfied =>
      obtain ⟨group', hmem, hgroup'⟩ := ih h
      exact ⟨group', List.mem_cons_of_mem _ hmem, hgroup'⟩
    case isFalse hunsatisfied =>
      split at h
      case h_1 => simp at h
      case h_2 runnable hfind =>
        refine ⟨group, List.mem_cons_self, by simpa using hunsatisfied, runnable,
          List.mem_of_find?_eq_some hfind, ?_, List.find?_some hfind⟩
        exact NextStep.run.inj h

/-- A satisfied factor is never asked for again. -/
theorem nextStep_notMem [DecidableEq Name] {executions : List (Step Name)} {satisfied : List Name}
    (h : nextStep executions satisfied = .run authenticator) :
    authenticator ∉ satisfied := by
  intro hmem
  have hrun : nextOfGroups satisfied (groupSteps executions) = .run authenticator := by
    unfold nextStep at h
    split at h
    · simp at h
    · exact h
  obtain ⟨group, -, hunsatisfied, step, hstep, rfl, -⟩ := nextOfGroups_run hrun
  have hany : group.members.any (fun m ↦ decide (m.authenticator ∈ satisfied)) = true :=
    List.any_eq_true.mpr ⟨step, hstep, by simpa using hmem⟩
  simp [isGroupSatisfied, hany] at hunsatisfied

section Groups

variable {steps : List (Step Name)} {satisfied : List Name}

/-- A group whose steps are changed in place. -/
def StepGroup.mapMembers (f : Step Name → Step Name) (group : StepGroup Name) :
    StepGroup Name :=
  { group with members := group.members.map f }

variable {f : Step Name → Step Name}

theorem groupStep_map (hf : ∀ s, (f s).requirement = s.requirement)
    (groups : List (StepGroup Name)) (s : Step Name) :
    groupStep (groups.map (StepGroup.mapMembers f)) (f s) =
      (groupStep groups s).map (StepGroup.mapMembers f) := by
  unfold groupStep
  rw [hf s]
  cases s.requirement with
  | disabled => rfl
  | alternative =>
    rw [List.getLast?_map]
    cases hlast : groups.getLast? with
    | none => simp [StepGroup.mapMembers]
    | some last =>
      obtain ⟨kind, members⟩ := last
      cases kind <;> simp [StepGroup.mapMembers, List.map_dropLast]
  | required | conditional => simp [StepGroup.mapMembers]

/-- Steps fall into groups by their requirements alone. -/
theorem groupSteps_map (hf : ∀ s, (f s).requirement = s.requirement) :
    groupSteps (steps.map f) = (groupSteps steps).map (StepGroup.mapMembers f) := by
  suffices ∀ groups : List (StepGroup Name),
      (steps.map f).foldl groupStep (groups.map (StepGroup.mapMembers f)) =
        (steps.foldl groupStep groups).map (StepGroup.mapMembers f) from this []
  induction steps with
  | nil => exact fun groups ↦ rfl
  | cons _ _ ih =>
    intro groups
    rw [List.map_cons, List.foldl_cons, List.foldl_cons, groupStep_map hf]
    exact ih _

variable {groups : List (StepGroup Name)} {s : Step Name}

/-- A step stays in the groups as further steps are added. -/
theorem groupStep_keeps
    (h : ∃ group ∈ groups, s ∈ group.members) (other : Step Name) :
    ∃ group ∈ groupStep groups other, s ∈ group.members := by
  obtain ⟨group, hgroup, hs⟩ := h
  unfold groupStep
  split
  case h_1 => exact ⟨group, hgroup, hs⟩
  case h_2 =>
    split
    case h_1 members hlast =>
      obtain ⟨init, rfl⟩ := List.getLast?_eq_some_iff.mp hlast
      rw [List.dropLast_concat]
      rcases List.mem_append.mp hgroup with hinit | hend
      · exact ⟨group, List.mem_append_left _ hinit, hs⟩
      · obtain rfl := List.mem_singleton.mp hend
        exact ⟨_, List.mem_append_right _ List.mem_cons_self, List.mem_append_left _ hs⟩
    case h_2 => exact ⟨group, List.mem_append_left _ hgroup, hs⟩
  case h_3 => exact ⟨group, List.mem_append_left _ hgroup, hs⟩

theorem groupStep_adds (groups : List (StepGroup Name))
    (h : s.requirement ≠ .disabled) :
    ∃ group ∈ groupStep groups s, s ∈ group.members := by
  unfold groupStep
  split
  case h_1 hdisabled => exact absurd hdisabled h
  case h_2 =>
    split
    case h_1 => exact ⟨_, List.mem_append_right _ List.mem_cons_self, by simp⟩
    case h_2 => exact ⟨_, List.mem_append_right _ List.mem_cons_self, List.mem_cons_self⟩
  case h_3 => exact ⟨_, List.mem_append_right _ List.mem_cons_self, List.mem_cons_self⟩

theorem mem_groupSteps (hs : s ∈ steps) (h : s.requirement ≠ .disabled) :
    ∃ group ∈ groupSteps steps, s ∈ group.members := by
  have hkeeps : ∀ (steps : List (Step Name)) (groups : List (StepGroup Name)),
      (∃ group ∈ groups, s ∈ group.members) →
        ∃ group ∈ steps.foldl groupStep groups, s ∈ group.members := by
    intro steps
    induction steps with
    | nil => exact fun groups hin ↦ hin
    | cons other _ ih => exact fun groups hin ↦ ih _ (groupStep_keeps hin other)
  obtain ⟨before, after, rfl⟩ := List.append_of_mem hs
  rw [groupSteps, List.foldl_append, List.foldl_cons]
  exact hkeeps after _ (groupStep_adds _ h)

/-- A group that is no run of alternatives is one step. -/
theorem groupStep_single
    (h : ∀ group ∈ groups, group.kind = .single → group.members.length = 1) (s : Step Name) :
    ∀ group ∈ groupStep groups s, group.kind = .single → group.members.length = 1 := by
  have hnew : ∀ added : StepGroup Name, (added.kind = .single → added.members.length = 1) →
      ∀ kept, (∀ group ∈ kept, group ∈ groups) →
        ∀ group ∈ kept ++ [added], group.kind = .single → group.members.length = 1 := by
    intro added hadded kept hkept group hgroup
    rcases List.mem_append.mp hgroup with hold | hlast
    · exact h group (hkept group hold)
    · obtain rfl := List.mem_singleton.mp hlast
      exact hadded
  unfold groupStep
  split
  case h_1 => exact h
  case h_2 =>
    split
    case h_1 => exact hnew _ (by simp) _ fun _ hmem ↦ List.dropLast_subset _ hmem
    case h_2 => exact hnew _ (by simp) _ fun _ hmem ↦ hmem
  case h_3 => exact hnew _ (fun _ ↦ rfl) _ fun _ hmem ↦ hmem

theorem single_groupSteps :
    ∀ group ∈ groupSteps steps, group.kind = .single → group.members.length = 1 := by
  suffices ∀ groups : List (StepGroup Name),
      (∀ group ∈ groups, group.kind = .single → group.members.length = 1) →
        ∀ group ∈ steps.foldl groupStep groups, group.kind = .single →
          group.members.length = 1 from this [] (by simp)
  induction steps with
  | nil => exact fun groups h ↦ h
  | cons s _ ih => exact fun groups h ↦ ih _ (groupStep_single h s)

theorem nextOfGroups_complete [DecidableEq Name]
    (h : nextOfGroups satisfied groups = .complete) :
    ∀ group ∈ groups, isGroupSatisfied group satisfied = true := by
  induction groups with
  | nil => simp
  | cons _ _ ih =>
    rw [nextOfGroups] at h
    split at h
    case isTrue hgroup =>
      intro other hother
      rcases List.mem_cons.mp hother with rfl | hlater
      · exact hgroup
      · exact ih h other hlater
    case isFalse => split at h <;> simp at h

/-- A flow is complete only with a satisfied member in the group of each step that
applies. -/
theorem satisfied_of_complete [DecidableEq Name] (h : nextStep steps satisfied = .complete)
    (hs : s ∈ steps) (henabled : s.requirement ≠ .disabled) (happlicable : s.applicable = true) :
    ∃ group ∈ groupSteps steps, s ∈ group.members ∧
      ∃ m ∈ group.members, m.authenticator ∈ satisfied := by
  have hcomplete : nextOfGroups satisfied (groupSteps steps) = .complete := by
    unfold nextStep at h
    split at h
    · simp at h
    · exact h
  obtain ⟨group, hgroup, hmember⟩ := mem_groupSteps hs henabled
  refine ⟨group, hgroup, hmember, ?_⟩
  have hsatisfied := nextOfGroups_complete hcomplete group hgroup
  unfold isGroupSatisfied at hsatisfied
  split at hsatisfied
  case isTrue hany =>
    obtain ⟨m, hm, hin⟩ := List.any_eq_true.mp hany
    exact ⟨m, hm, of_decide_eq_true hin⟩
  case isFalse =>
    -- What stands in for a satisfied member is a single step that does not apply.
    split at hsatisfied
    case h_1 only others hkind hmembers =>
      have hlength := single_groupSteps group hgroup hkind
      obtain rfl : others = [] := by simpa [hmembers] using hlength
      obtain rfl : s = only := by simpa [hmembers] using hmember
      split at hsatisfied <;> simp [happlicable] at hsatisfied
    case h_2 => simp at hsatisfied

end Groups

end Odudu.AuthnFlows
