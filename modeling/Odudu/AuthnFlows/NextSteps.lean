import Odudu.AuthnFlows.Requirements
import Mathlib.Tactic.ByContra

/-!
# What the next step says of a flow

`nextStep` says that a flow is complete exactly when it has a group and all of them are
satisfied, and asks otherwise for an applicable authenticator of the first that is not
(`nextStep_complete_iff`, `nextStep_run_first`).  A disabled step is as if it were not listed.
A subject that does each step it is asked for is asked no more often than there are steps
(`rounds_end`), for the steps that are not satisfied get fewer with every round.
-/

set_option autoImplicit false

namespace Odudu.AuthnFlows

variable {Name : Type}

section Answers

variable {steps : List (Step Name)} {satisfied : List Name} {groups : List (StepGroup Name)}
  {authenticator : Name}

/-! ### Groups -/

variable {s : Step Name}

/-- The groups are made of steps of the flow. -/
theorem groupStep_subset (h : ∀ group ∈ groups, ∀ m ∈ group.members, m ∈ steps)
    (hs : s ∈ steps) : ∀ group ∈ groupStep groups s, ∀ m ∈ group.members, m ∈ steps := by
  have hnew : ∀ (kind : GroupKind) (members : List (Step Name)) (kept : List (StepGroup Name)),
      (∀ group ∈ kept, group ∈ groups) → (∀ m ∈ members, m ∈ steps) →
        ∀ group ∈ kept ++ [⟨kind, members⟩], ∀ m ∈ group.members, m ∈ steps := by
    intro kind members kept hkept hmembers group hgroup
    rcases List.mem_append.mp hgroup with hold | hlast
    · exact h group (hkept group hold)
    · obtain rfl := List.mem_singleton.mp hlast
      exact hmembers
  have halone : ∀ m ∈ [s], m ∈ steps := fun m hm ↦ List.mem_singleton.mp hm ▸ hs
  unfold groupStep
  split
  case h_1 => exact h
  case h_2 =>
    split
    case h_1 members hlast =>
      have hmembers : ∀ m ∈ members, m ∈ steps := h _ (List.mem_of_getLast? hlast)
      refine hnew _ _ _ (fun _ hmem ↦ List.dropLast_subset _ hmem) fun m hm ↦ ?_
      rcases List.mem_append.mp hm with hbefore | hlast
      · exact hmembers m hbefore
      · exact halone m hlast
    case h_2 => exact hnew _ _ _ (fun _ hmem ↦ hmem) halone
  case h_3 => exact hnew _ _ _ (fun _ hmem ↦ hmem) halone

theorem groupSteps_subset :
    ∀ group ∈ groupSteps steps, ∀ m ∈ group.members, m ∈ steps := by
  suffices ∀ (rest : List (Step Name)) (groups : List (StepGroup Name)), (∀ s ∈ rest, s ∈ steps) →
      (∀ group ∈ groups, ∀ m ∈ group.members, m ∈ steps) →
        ∀ group ∈ rest.foldl groupStep groups, ∀ m ∈ group.members, m ∈ steps from
    this steps [] (fun _ hs ↦ hs) (by simp)
  intro rest
  induction rest with
  | nil => exact fun groups _ h ↦ h
  | cons s _ ih =>
    intro groups hrest h
    exact ih _ (fun other hother ↦ hrest other (List.mem_cons_of_mem _ hother))
      (groupStep_subset h (hrest s List.mem_cons_self))

/-- A disabled step makes no difference to the groups, wherever it is listed. -/
theorem groupSteps_disabled (before after : List (Step Name)) (h : s.requirement = .disabled) :
    groupSteps (before ++ s :: after) = groupSteps (before ++ after) := by
  have hskip : ∀ groups : List (StepGroup Name), groupStep groups s = groups := by
    intro groups
    rw [groupStep, h]
  rw [groupSteps, groupSteps, List.foldl_append, List.foldl_append, List.foldl_cons, hskip]

/-! ### The answers -/

variable [DecidableEq Name]

theorem nextOfGroups_complete_iff : nextOfGroups satisfied groups = .complete ↔
    ∀ group ∈ groups, isGroupSatisfied group satisfied = true := by
  constructor
  · exact nextOfGroups_complete
  · intro h
    induction groups with
    | nil => rfl
    | cons group _ ih =>
      rw [nextOfGroups, if_pos (h group List.mem_cons_self)]
      exact ih fun other hother ↦ h other (List.mem_cons_of_mem _ hother)

theorem nextStep_of_ne_nil (h : groupSteps steps ≠ []) :
    nextStep steps satisfied = nextOfGroups satisfied (groupSteps steps) := by
  unfold nextStep
  split
  case h_1 hempty => exact absurd hempty h
  case h_2 => rfl

theorem nextStep_of_nil (h : groupSteps steps = []) : nextStep steps satisfied = .fail := by
  rw [nextStep, h]

theorem nextStep_complete_iff : nextStep steps satisfied = .complete ↔
    groupSteps steps ≠ [] ∧ ∀ group ∈ groupSteps steps, isGroupSatisfied group satisfied = true := by
  by_cases hempty : groupSteps steps = []
  · rw [nextStep_of_nil hempty]
    simp [hempty]
  · rw [nextStep_of_ne_nil hempty, nextOfGroups_complete_iff]
    simp [hempty]

/-- What is asked for is of the first group that is not satisfied. -/
theorem nextOfGroups_run_first (h : nextOfGroups satisfied groups = .run authenticator) :
    ∃ before group after, groups = before ++ group :: after ∧
      (∀ earlier ∈ before, isGroupSatisfied earlier satisfied = true) ∧
        isGroupSatisfied group satisfied = false ∧
          ∃ s ∈ group.members, s.authenticator = authenticator ∧ s.applicable = true := by
  induction groups with
  | nil => simp [nextOfGroups] at h
  | cons group groups ih =>
    rw [nextOfGroups] at h
    split at h
    case isTrue hgroup =>
      obtain ⟨before, first, after, rfl, hbefore, hfirst⟩ := ih h
      refine ⟨group :: before, first, after, rfl, fun earlier hearlier ↦ ?_, hfirst⟩
      rcases List.mem_cons.mp hearlier with rfl | hlater
      · exact hgroup
      · exact hbefore earlier hlater
    case isFalse hgroup =>
      split at h
      case h_1 => simp at h
      case h_2 runnable hfind =>
        exact ⟨[], group, groups, rfl, by simp, by simpa using hgroup, runnable,
          List.mem_of_find?_eq_some hfind, NextStep.run.inj h, List.find?_some hfind⟩

theorem nextStep_run_first (h : nextStep steps satisfied = .run authenticator) :
    ∃ before group after, groupSteps steps = before ++ group :: after ∧
      (∀ earlier ∈ before, isGroupSatisfied earlier satisfied = true) ∧
        isGroupSatisfied group satisfied = false ∧
          ∃ s ∈ group.members, s.authenticator = authenticator ∧ s.applicable = true := by
  by_cases hempty : groupSteps steps = []
  · rw [nextStep_of_nil hempty] at h
    cases h
  · rw [nextStep_of_ne_nil hempty] at h
    exact nextOfGroups_run_first h

theorem nextStep_disabled (before after : List (Step Name)) (h : s.requirement = .disabled) :
    nextStep (before ++ s :: after) satisfied = nextStep (before ++ after) satisfied := by
  rw [nextStep, nextStep, groupSteps_disabled before after h]

end Answers

/-! ### Rounds -/

variable [DecidableEq Name]

/-- The authenticator that is asked for, if one is, is satisfied as well. -/
def doNext (steps : List (Step Name)) (satisfied : List Name) : List Name :=
  match nextStep steps satisfied with
  | .run authenticator => authenticator :: satisfied
  | _ => satisfied

/-- What is satisfied after so many rounds. -/
def satisfiedAfter (steps : List (Step Name)) (satisfied : List Name) : ℕ → List Name
  | 0 => satisfied
  | rounds + 1 => doNext steps (satisfiedAfter steps satisfied rounds)

/-- The steps whose authenticator is not satisfied yet. -/
def owed (steps : List (Step Name)) (satisfied : List Name) : List (Step Name) :=
  steps.filter fun s ↦ s.authenticator ∉ satisfied

section Rounds

variable {steps : List (Step Name)} {satisfied : List Name} {authenticator : Name}

/-- With the authenticator that is asked for, fewer steps are owed. -/
theorem owed_lt (h : nextStep steps satisfied = .run authenticator) :
    (owed steps (authenticator :: satisfied)).length < (owed steps satisfied).length := by
  obtain ⟨before, group, after, hgroups, -, -, s, hs, rfl, -⟩ := nextStep_run_first h
  have hstep : s ∈ steps := by
    refine groupSteps_subset group ?_ s hs
    rw [hgroups]
    exact List.mem_append_right _ List.mem_cons_self
  have howed : s ∈ owed steps satisfied :=
    List.mem_filter.mpr ⟨hstep, by simpa using nextStep_notMem h⟩
  have hless : owed steps (s.authenticator :: satisfied) =
      (owed steps satisfied).filter fun other ↦ other.authenticator ≠ s.authenticator := by
    rw [owed, owed, List.filter_filter]
    refine List.filter_congr fun other _ ↦ ?_
    simp [List.mem_cons, not_or]
  rw [hless]
  exact List.length_filter_lt_length_iff_exists.mpr ⟨s, howed, by simp⟩

/-- As long as every round asks for a step, every round leaves fewer of them owed. -/
theorem owed_satisfiedAfter {rounds : ℕ}
    (h : ∀ earlier < rounds, ∃ authenticator,
      nextStep steps (satisfiedAfter steps satisfied earlier) = .run authenticator) :
    (owed steps (satisfiedAfter steps satisfied rounds)).length + rounds ≤ steps.length := by
  induction rounds with
  | zero => exact List.length_filter_le _ _
  | succ rounds ih =>
    have hbefore := ih fun earlier hearlier ↦ h earlier (by omega)
    obtain ⟨authenticator, hrun⟩ := h rounds (by omega)
    have hlt := owed_lt hrun
    have hnext : satisfiedAfter steps satisfied (rounds + 1) =
        authenticator :: satisfiedAfter steps satisfied rounds := by
      rw [satisfiedAfter, doNext, hrun]
    rw [hnext]
    omega

/-- A subject that does what it is asked for is asked no more often than there are steps. -/
theorem rounds_end (steps : List (Step Name)) (satisfied : List Name) :
    ∃ rounds ≤ steps.length,
      nextStep steps (satisfiedAfter steps satisfied rounds) = .complete ∨
        nextStep steps (satisfiedAfter steps satisfied rounds) = .fail := by
  by_contra hgoes
  have hruns : ∀ rounds ≤ steps.length, ∃ authenticator,
      nextStep steps (satisfiedAfter steps satisfied rounds) = .run authenticator := by
    intro rounds hrounds
    cases hnext : nextStep steps (satisfiedAfter steps satisfied rounds) with
    | run authenticator => exact ⟨authenticator, rfl⟩
    | complete => exact absurd ⟨rounds, hrounds, Or.inl hnext⟩ hgoes
    | fail => exact absurd ⟨rounds, hrounds, Or.inr hnext⟩ hgoes
  have hall := @owed_satisfiedAfter Name _ steps satisfied steps.length fun earlier hearlier ↦
    hruns earlier (Nat.le_of_lt hearlier)
  obtain ⟨authenticator, hrun⟩ := hruns steps.length (Nat.le_refl _)
  have hlt := owed_lt hrun
  omega

end Rounds

/-- **The next step.**  It is `complete` exactly for a flow with a group, whose groups are all
satisfied; one that is asked for is applicable, not satisfied, and of the first group that is
not satisfied; disabled steps change nothing; and doing what is asked comes to an end within
as many rounds as there are steps. -/
theorem nextStep_sound (steps : List (Step Name)) (satisfied : List Name) :
    (nextStep steps satisfied = .complete ↔
      groupSteps steps ≠ [] ∧
        ∀ group ∈ groupSteps steps, isGroupSatisfied group satisfied = true) ∧
    (∀ authenticator, nextStep steps satisfied = .run authenticator →
      authenticator ∉ satisfied ∧
        ∃ before group after, groupSteps steps = before ++ group :: after ∧
          (∀ earlier ∈ before, isGroupSatisfied earlier satisfied = true) ∧
            isGroupSatisfied group satisfied = false ∧
              ∃ s ∈ group.members, s.authenticator = authenticator ∧ s.applicable = true) ∧
    (∀ before after s, steps = before ++ s :: after → s.requirement = .disabled →
      nextStep (before ++ after) satisfied = nextStep steps satisfied) ∧
    (∀ before after s, steps = before ++ after → s.requirement = .disabled →
      nextStep (before ++ s :: after) satisfied = nextStep steps satisfied) ∧
    ∃ rounds ≤ steps.length,
      nextStep steps (satisfiedAfter steps satisfied rounds) = .complete ∨
        nextStep steps (satisfiedAfter steps satisfied rounds) = .fail := by
  refine ⟨nextStep_complete_iff, fun authenticator h ↦ ⟨nextStep_notMem h, nextStep_run_first h⟩,
    ?_, ?_, rounds_end steps satisfied⟩
  · rintro before after s rfl hdisabled
    exact (nextStep_disabled before after hdisabled).symm
  · rintro before after s rfl hdisabled
    exact nextStep_disabled before after hdisabled

/-- A flow whose one step is disabled has no group, and is not complete. -/
theorem nextStep_no_group :
    (∀ group ∈ groupSteps [(⟨"password", .disabled, true⟩ : Step String)],
      isGroupSatisfied group [] = true) ∧
    nextStep [(⟨"password", .disabled, true⟩ : Step String)] [] = .fail := by
  decide

end Odudu.AuthnFlows
