import Odudu.ProtocolAdmin.Replacements
import Mathlib.Data.List.Perm.Basic

/-!
# Contents and tags

What a resource holds is what is read of it (`Resource.SameContent`), and its tag is of the
record it is read as (`Resource.Shows`).  A resource is read as one record, in whatever order
its rows are found (`Resource.Shows.unique`), and two contents that differ have different tags
(`Resource.sameContent_of_tag`): the text of a record is of no other record, and the members of
a record that are sorted are still what they were.
-/

set_option autoImplicit false

namespace Odudu.ProtocolAdmin.Replacements

open ReadCommitted Texts Etag
open AuthnFlows (Requirement)

/-! ### Canonical shapes -/

theorem canonicalizeMembers_names (members : List (Utf16 × Record)) :
    (canonicalizeMembers members).map Prod.fst = members.map Prod.fst := by
  induction members with
  | nil => rfl
  | cons _ _ ih =>
    rw [canonicalizeMembers, List.map_cons, List.map_cons, ih]

/-- Two lists of the same members, under the same names in the same order, are one. -/
theorem eq_of_perm_of_names {α β : Type} {members members' : List (α × β)}
    (hnames : members.map Prod.fst = members'.map Prod.fst) (hnodup : (members.map Prod.fst).Nodup)
    (h : members.Perm members') : members = members' := by
  induction members generalizing members' with
  | nil => exact h.nil_eq
  | cons member _ ih =>
    cases members' with
    | nil => exact absurd h.symm.nil_eq (List.cons_ne_nil _ _).symm
    | cons member' members' =>
      rw [List.map_cons, List.map_cons] at hnames
      obtain ⟨-, hrest⟩ := List.cons.inj hnames
      rw [List.map_cons, List.nodup_cons] at hnodup
      have hmember : member = member' := by
        rcases List.mem_cons.mp (h.subset List.mem_cons_self) with heq | hmem
        · exact heq
        · have hlater : member.1 ∈ members'.map Prod.fst := List.mem_map_of_mem hmem
          exact absurd (hrest ▸ hlater) hnodup.1
      subst hmember
      rw [ih hrest hnodup.2 h.cons_inv]

/-- Objects with the same names in the same order that have one canonical form have the same
canonical values. -/
theorem canonicalizeMembers_eq {members members' : List (Utf16 × Record)}
    (h : canonicalize (.object members) = canonicalize (.object members'))
    (hnames : members.map Prod.fst = members'.map Prod.fst)
    (hnodup : (members.map Prod.fst).Nodup) :
    canonicalizeMembers members = canonicalizeMembers members' := by
  rw [canonicalize, canonicalize] at h
  have hsorted : sortMembers (canonicalizeMembers members) =
      sortMembers (canonicalizeMembers members') := Record.object.inj h
  refine eq_of_perm_of_names ?_ ?_ ?_
  · rw [canonicalizeMembers_names, canonicalizeMembers_names, hnames]
  · rw [canonicalizeMembers_names]
    exact hnodup
  · exact (sortMembers_perm _).symm.trans (hsorted ▸ sortMembers_perm _)

theorem Uuids.spell_injective (uuids : Uuids) : Function.Injective uuids.spell := by
  intro id id' h
  have hparse := congrArg uuids.parse h
  rw [uuids.parse_spell, uuids.parse_spell] at hparse
  exact Option.some.inj hparse

theorem optionally_string_injective {α : Type} {text : α → Utf16}
    (htext : Function.Injective text) {a b : Option α}
    (h : canonicalize (optionally (fun x ↦ .string (text x)) a) =
      canonicalize (optionally (fun x ↦ .string (text x)) b)) : a = b := by
  cases a <;> cases b <;>
    simp only [optionally, canonicalize, reduceCtorEq, Record.string.injEq] at h
  · rfl
  · rw [htext h]

section Shapes

variable (uuids : Uuids)

theorem roleRecord_injective :
    Function.Injective fun role ↦ canonicalize (roleRecord uuids role) := by
  intro role role' h
  have hnames :
      [ofAscii "id", ofAscii "name", ofAscii "client_id", ofAscii "client_key"].Nodup := by
    decide
  have hmembers := canonicalizeMembers_eq h rfl hnames
  simp only [canonicalizeMembers, List.cons.injEq, Prod.mk.injEq, true_and, and_true] at hmembers
  obtain ⟨hid, hname, hclient, hkey⟩ := hmembers
  simp only [canonicalize, Record.string.injEq] at hid hname
  have hclient' := optionally_string_injective uuids.spell_injective hclient
  have hkey' := optionally_string_injective Function.injective_id hkey
  have hid' := uuids.spell_injective hid
  cases role
  cases role'
  simp_all

theorem groupRecord_injective :
    Function.Injective fun fields ↦ canonicalize (groupRecord uuids fields) := by
  intro fields fields' h
  have hnames : [ofAscii "id", ofAscii "name", ofAscii "description", ofAscii "parent_id",
      ofAscii "default_for_new_subjects", ofAscii "path", ofAscii "created_at"].Nodup := by
    decide
  have hmembers := canonicalizeMembers_eq h rfl hnames
  simp only [canonicalizeMembers, List.cons.injEq, Prod.mk.injEq, true_and, and_true] at hmembers
  obtain ⟨hid, hname, hdescription, hparent, hdefault, hpath, hcreated⟩ := hmembers
  simp only [canonicalize, Record.string.injEq, Record.bool.injEq]
    at hid hname hdefault hpath hcreated
  have hdescription' := optionally_string_injective Function.injective_id hdescription
  have hparent' := optionally_string_injective uuids.spell_injective hparent
  have hid' := uuids.spell_injective hid
  obtain ⟨id, group⟩ := fields
  obtain ⟨id', group'⟩ := fields'
  cases group
  cases group'
  simp_all

end Shapes

theorem requirementText_injective : Function.Injective requirementText := by
  intro requirement requirement' h
  revert h
  cases requirement <;> cases requirement' <;> decide

theorem stepRecord_injective : Function.Injective fun step ↦ canonicalize (stepRecord step) := by
  intro step step' h
  have hnames : [ofAscii "index", ofAscii "authenticator", ofAscii "requirement"].Nodup := by
    decide
  have hmembers := canonicalizeMembers_eq h rfl hnames
  simp only [canonicalizeMembers, List.cons.injEq, Prod.mk.injEq, true_and, and_true] at hmembers
  obtain ⟨hindex, hauthenticator, hrequirement⟩ := hmembers
  simp only [canonicalize, Record.string.injEq, Record.number.injEq]
    at hindex hauthenticator hrequirement
  have hrequirement' := requirementText_injective hrequirement
  obtain ⟨index, authenticator, requirement⟩ := step
  obtain ⟨index', authenticator', requirement'⟩ := step'
  simp_all

theorem RequiredAction.text_injective : Function.Injective RequiredAction.text := by
  intro action action' h
  revert h
  cases action <;> cases action' <;> decide

/-- Lists of shapes that have one canonical form are one list. -/
theorem itemsRecord_injective {α : Type} {shape : α → Record}
    (hshape : Function.Injective fun a ↦ canonicalize (shape a)) {items items' : List α}
    (h : canonicalize (itemsRecord (items.map shape)) =
      canonicalize (itemsRecord (items'.map shape))) :
    items = items' := by
  have hnames : [ofAscii "items"].Nodup := List.nodup_singleton _
  have hmembers := canonicalizeMembers_eq h rfl hnames
  simp only [canonicalizeMembers, List.cons.injEq, Prod.mk.injEq, true_and, and_true, canonicalize,
    canonicalizeItems_eq, List.map_map, Record.array.injEq] at hmembers
  exact List.map_injective_iff.mpr hshape hmembers

/-- The actions of one tag are the same, but for their order. -/
theorem actionsRecord_perm {actions actions' : List RequiredAction}
    (h : canonicalize (actionsRecord actions) = canonicalize (actionsRecord actions')) :
    actions.Perm actions' := by
  have hnames : [ofAscii "actions"].Nodup := List.nodup_singleton _
  have hmembers := canonicalizeMembers_eq h rfl hnames
  simp only [canonicalizeMembers, List.cons.injEq, Prod.mk.injEq, true_and, and_true, canonicalize,
    canonicalizeItems_eq, List.map_map, Record.array.injEq] at hmembers
  have hstring : Function.Injective (canonicalize ∘ Record.string) := by
    intro text text' htext
    simpa [canonicalize] using htext
  have hsorted := List.map_injective_iff.mpr hstring hmembers
  have htexts : (actions.map RequiredAction.text).Perm (actions'.map RequiredAction.text) := by
    exact (sortTexts_perm_self _).symm.trans (hsorted ▸ sortTexts_perm_self _)
  exact (List.map_perm_map_iff RequiredAction.text_injective).mp htexts

/-! ### What a resource holds -/

namespace Resource

/-- What is read of the resource is the same. -/
def SameContent : Resource → Rows → Rows → Prop
  | subjectRoles id, s, s' => ∀ role, s.assigned id role = s'.assigned id role
  | groupRoles id, s, s' => ∀ role, s.mapped id role = s'.mapped id role
  | requiredActions id, s, s' => ∀ action, s.owes id action = s'.owes id action
  | subjectGroups id, s, s' => ∀ group, s.membership id group = s'.membership id group
  | flow, s, s' => ∀ index, s.execution index = s'.execution index
  | themeDraft scope, s, s' => s.draft scope = s'.draft scope

/-- The record the resource is read as. -/
def Shows (uuids : Uuids) : Resource → Rows → Record → Prop
  | subjectRoles id, s, record => ∃ items, Lists RoleAssignment.id items (s.assigned id) ∧
      record = itemsRecord (items.map (roleRecord uuids))
  | groupRoles id, s, record => ∃ items, Lists RoleAssignment.id items (s.mapped id) ∧
      record = itemsRecord (items.map (roleRecord uuids))
  | requiredActions id, s, record => ∃ actions : List RequiredAction,
      (actions.Nodup ∧ ∀ action, action ∈ actions ↔ s.owes id action = true) ∧
        record = actionsRecord actions
  | subjectGroups id, s, record => ∃ items, Lists GroupFields.id items (s.membership id) ∧
      record = itemsRecord (items.map (groupRecord uuids))
  | flow, s, record => ∃ items, Lists ExecutionStep.index items s.execution ∧
      record = itemsRecord (items.map stepRecord)
  | themeDraft scope, s, record => s.draft scope = some record

/-- The tag of the resource when that is its record. -/
def entityTag (sha : Sha256) : Resource → Record → Utf16
  | themeDraft _, record => quotedTag (draftEtag sha record)
  | _, record => etagOf sha record

end Resource

section Lists

variable {α : Type} {id : α → ℕ} {items items' : List α} {here here' : ℕ → Option α}

theorem Lists.unique (h : Lists id items here) (h' : Lists id items' here) : items = items' := by
  have hnodup : ∀ {l : List α}, l.Pairwise (fun a b ↦ id a < id b) → l.Nodup := fun hl ↦
    hl.imp fun hlt heq ↦ by
      rw [heq] at hlt
      exact Nat.lt_irrefl _ hlt
  have hperm : items.Perm items' :=
    (List.perm_ext_iff_of_nodup (hnodup h.1) (hnodup h'.1)).mpr fun a ↦ (h.2 a).trans (h'.2 a).symm
  refine hperm.eq_of_pairwise ?_ h.1 h'.1
  intro a b _ _ hab hba
  exact absurd (Nat.lt_trans hab hba) (Nat.lt_irrefl _)

/-- One list is of one content. -/
theorem Lists.here_eq (h : Lists id items here) (h' : Lists id items here')
    (hid : ∀ n a, here n = some a → id a = n) (hid' : ∀ n a, here' n = some a → id a = n) :
    here = here' := by
  funext n
  cases hn : here n with
  | some a =>
    obtain rfl := hid n a hn
    exact (((h'.2 a).mp ((h.2 a).mpr hn))).symm
  | none =>
    cases hn' : here' n with
    | none => rfl
    | some a =>
      obtain rfl := hid' n a hn'
      exact absurd ((h.2 a).mp ((h'.2 a).mpr hn')) (by simp [hn])

end Lists

section Ids

variable {s : Rows} {a : RoleAssignment}

theorem roleAssignment_id {n : ℕ} (h : s.roleAssignment n = some a) :
    a.id = n := by
  obtain ⟨role, -, rfl⟩ := Option.map_eq_some_iff.mp h
  rfl

theorem assigned_id {subject n : ℕ} (h : s.assigned subject n = some a) :
    a.id = n := by
  unfold Rows.assigned at h
  split at h
  · exact roleAssignment_id h
  · cases h

theorem mapped_id {group n : ℕ} (h : s.mapped group n = some a) :
    a.id = n := by
  unfold Rows.mapped at h
  split at h
  · exact roleAssignment_id h
  · cases h

theorem membership_id {subject n : ℕ} {a : GroupFields} (h : s.membership subject n = some a) :
    a.id = n := by
  unfold Rows.membership at h
  split at h
  · obtain ⟨group, -, rfl⟩ := Option.map_eq_some_iff.mp h
    rfl
  · cases h

theorem execution_index {n : ℕ} {a : ExecutionStep} (h : s.execution n = some a) : a.index = n := by
  obtain ⟨step, -, rfl⟩ := Option.map_eq_some_iff.mp h
  rfl

end Ids

namespace Resource

variable {sha : Sha256} {uuids : Uuids} {r : Resource} {s s' : Rows} {record record' : Record}

theorem Shows.unique (h : r.Shows uuids s record) (h' : r.Shows uuids s record') :
    record = record' := by
  cases r with
  | subjectRoles id | groupRoles id | subjectGroups id | flow =>
    obtain ⟨items, hitems, rfl⟩ := h
    obtain ⟨items', hitems', rfl⟩ := h'
    rw [hitems.unique hitems']
  | requiredActions =>
    obtain ⟨actions, ⟨hnodup, hactions⟩, rfl⟩ := h
    obtain ⟨actions', ⟨hnodup', hactions'⟩, rfl⟩ := h'
    have hperm : actions.Perm actions' := (List.perm_ext_iff_of_nodup hnodup hnodup').mpr
      fun action ↦ (hactions action).trans (hactions' action).symm
    rw [actionsRecord, actionsRecord, sortTexts_perm (hperm.map _)]
  | themeDraft => exact Option.some.inj (h.symm.trans h')

/-- Two contents of one tag are the same. -/
theorem sameContent_of_tag (h : r.Shows uuids s record) (h' : r.Shows uuids s' record')
    (htag : r.entityTag sha record = r.entityTag sha record') : r.SameContent s s' := by
  cases r with
  | subjectRoles =>
    obtain ⟨items, hitems, rfl⟩ := h
    obtain ⟨items', hitems', rfl⟩ := h'
    obtain rfl := itemsRecord_injective (roleRecord_injective uuids) (etagOf_eq_iff.mp htag)
    exact congrFun (hitems.here_eq hitems' (fun _ _ ↦ assigned_id) fun _ _ ↦ assigned_id)
  | groupRoles =>
    obtain ⟨items, hitems, rfl⟩ := h
    obtain ⟨items', hitems', rfl⟩ := h'
    obtain rfl := itemsRecord_injective (roleRecord_injective uuids) (etagOf_eq_iff.mp htag)
    exact congrFun (hitems.here_eq hitems' (fun _ _ ↦ mapped_id) fun _ _ ↦ mapped_id)
  | requiredActions =>
    obtain ⟨actions, ⟨hnodup, hactions⟩, rfl⟩ := h
    obtain ⟨actions', ⟨hnodup', hactions'⟩, rfl⟩ := h'
    have hperm := actionsRecord_perm (etagOf_eq_iff.mp htag)
    intro action
    rw [Bool.eq_iff_iff, ← hactions, ← hactions']
    exact hperm.mem_iff
  | subjectGroups =>
    obtain ⟨items, hitems, rfl⟩ := h
    obtain ⟨items', hitems', rfl⟩ := h'
    obtain rfl := itemsRecord_injective (groupRecord_injective uuids) (etagOf_eq_iff.mp htag)
    exact congrFun (hitems.here_eq hitems' (fun _ _ ↦ membership_id) fun _ _ ↦ membership_id)
  | flow =>
    obtain ⟨items, hitems, rfl⟩ := h
    obtain ⟨items', hitems', rfl⟩ := h'
    obtain rfl := itemsRecord_injective stepRecord_injective (etagOf_eq_iff.mp htag)
    exact congrFun (hitems.here_eq hitems' (fun _ _ ↦ execution_index) fun _ _ ↦ execution_index)
  | themeDraft =>
    obtain rfl := stringify_injective (sha.collisionFree (quotedTag_injective htag))
    exact h.trans h'.symm

end Resource

/-! ### Whose row is whose -/

/-- The resource whose requests write the row. -/
def owner : layout.Key → Option Resource
  | ⟨.subjectRoles, id⟩ => some (.subjectRoles id.1)
  | ⟨.groupRoles, id⟩ => some (.groupRoles id.1)
  | ⟨.subjectGroups, id⟩ => some (.subjectGroups id.1)
  | ⟨.userRequiredActions, id⟩ => some (.requiredActions id.1)
  | ⟨.authenticationExecutions, _⟩ => some .flow
  | ⟨.themeDrafts, scope⟩ => some (.themeDraft scope)
  | _ => none

namespace Resource

/-- The rows the resource is read from are the same: its own, and those nobody writes. -/
def Agree (r : Resource) (s s' : Rows) : Prop :=
  ∀ k, owner k = some r ∨ owner k = none → s k = s' k

variable {uuids : Uuids} {r : Resource} {s s' : Rows} {record : Record}

theorem Agree.roleAssignment (h : r.Agree s s') (id : RoleId) :
    s.roleAssignment id = s'.roleAssignment id := by
  have hrole := h ⟨.roles, id⟩ (Or.inr rfl)
  have hclients : ∀ client, s ⟨.clients, client⟩ = s' ⟨.clients, client⟩ := fun client ↦
    h ⟨.clients, client⟩ (Or.inr rfl)
  simp only [Rows.roleAssignment, hrole, hclients]

theorem Agree.sameContent (h : r.Agree s s') : r.SameContent s s' := by
  cases r with
  | subjectRoles id =>
    intro role
    have hlink := h ⟨.subjectRoles, (id, role)⟩ (Or.inl rfl)
    simp only [Rows.assigned, hlink, h.roleAssignment]
  | groupRoles id =>
    intro role
    have hlink := h ⟨.groupRoles, (id, role)⟩ (Or.inl rfl)
    simp only [Rows.mapped, hlink, h.roleAssignment]
  | requiredActions id =>
    intro action
    have hlink := h ⟨.userRequiredActions, (id, action)⟩ (Or.inl rfl)
    simp only [Rows.owes, hlink]
  | subjectGroups id =>
    intro group
    have hlink := h ⟨.subjectGroups, (id, group)⟩ (Or.inl rfl)
    have hgroup := h ⟨.groups, group⟩ (Or.inr rfl)
    simp only [Rows.membership, hlink, hgroup]
  | flow =>
    intro index
    have hstep := h ⟨.authenticationExecutions, index⟩ (Or.inl rfl)
    simp only [Rows.execution, hstep]
  | themeDraft scope => exact h ⟨.themeDrafts, scope⟩ (Or.inl rfl)

/-- What is read is read of the content. -/
theorem SameContent.shows (hsame : r.SameContent s s') (h : r.Shows uuids s record) :
    r.Shows uuids s' record := by
  cases r with
  | subjectRoles id =>
    rw [Shows, ← (funext hsame : s.assigned id = s'.assigned id)]
    exact h
  | groupRoles id =>
    rw [Shows, ← (funext hsame : s.mapped id = s'.mapped id)]
    exact h
  | requiredActions id =>
    rw [Shows, ← (funext hsame : s.owes id = s'.owes id)]
    exact h
  | subjectGroups id =>
    rw [Shows, ← (funext hsame : s.membership id = s'.membership id)]
    exact h
  | flow =>
    rw [Shows, ← (funext hsame : s.execution = s'.execution)]
    exact h
  | themeDraft => exact hsame.symm.trans h

end Resource

end Odudu.ProtocolAdmin.Replacements
