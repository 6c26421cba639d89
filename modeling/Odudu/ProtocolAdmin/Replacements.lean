import Odudu.AuthnFlows.Requirements
import Odudu.ProtocolAdmin.Etag
import Odudu.ReadCommitted.Interleaving
import Odudu.ReadCommitted.Tables

/-!
# Lists that are replaced whole

The writes of the administration API that replace a list, or a document, whole and require
`If-Match`: `setRoles`, `setRequiredActions` and `setSubjectGroups` (`usecase/subjects.ts`),
`setGroupRoles` (`usecase/groups.ts`), `replaceFlow` (`usecase/flow.ts`) and the saving of a
theme's draft (`usecase/theme.ts`), with the statements they make and the guard that keeps a
tenant an administrator (`usecase/last-administrator.ts`).

What is read of the capabilities, of the tenant's administrators, of default groups and of a
theme's images only refuses a request, and is answered in any way.  What a flow or a theme is
refused for before a lock is taken is a parameter.  Shared locks and the audit are left out, and
so are the images a draft holds.
-/

set_option autoImplicit false

namespace Odudu.ProtocolAdmin.Replacements

open ReadCommitted Program Texts Etag
open AuthnFlows (Requirement)

abbrev SubjectId := ℕ

abbrev RoleId := ℕ

abbrev GroupId := ℕ

abbrev ClientDbId := ℕ

/-- The row id of a client, or the tenant's own theme. -/
abbrev ThemeScope := Option ClientDbId

inductive RequiredAction where
  | updatePassword
  | configureTotp
  | configurePasskey
  | generateRecoveryCodes
  deriving DecidableEq

/-- A row of `roles`. -/
structure Role where
  name : Utf16
  clientId : Option ClientDbId

/-- A row of `groups`, its instant of creation as it is printed. -/
structure Group where
  name : Utf16
  description : Option Utf16
  parentId : Option GroupId
  defaultForNewSubjects : Bool
  path : Utf16
  createdAt : Utf16

/-- A row of `authentication_executions`. -/
structure ExecutionInput where
  authenticator : Utf16
  requirement : Requirement

inductive Table where
  /-- The advisory locks. -/
  | administrators
  | defaultReach
  | flowLock
  | themeLock
  | subjects
  | groups
  | roles
  /-- The clients, by what `client_id` they have. -/
  | clients
  | subjectRoles
  | groupRoles
  | subjectGroups
  | userRequiredActions
  | authenticationExecutions
  | themeDrafts
  deriving DecidableEq

@[reducible] def Table.Id : Table → Type
  | administrators | defaultReach | flowLock => Unit
  | themeLock | themeDrafts => ThemeScope
  | subjectRoles | groupRoles | subjectGroups => ℕ × ℕ
  | userRequiredActions => SubjectId × RequiredAction
  | _ => ℕ

@[reducible] def Table.Row : Table → Type
  | administrators | defaultReach | flowLock | themeLock => Empty
  | subjects => Unit
  | groups => Group
  | roles => Role
  | clients => Utf16
  | subjectRoles | groupRoles | subjectGroups | userRequiredActions => Unit
  | authenticationExecutions => ExecutionInput
  | themeDrafts => Record

abbrev layout : Layout where
  Table := Table
  Id := Table.Id
  Row := Table.Row

abbrev Rows := layout.Rows

/-! ### What is read of the lists -/

structure RoleAssignment where
  id : RoleId
  name : Utf16
  clientId : Option ClientDbId
  clientKey : Option Utf16

structure GroupFields where
  id : GroupId
  group : Group

structure ExecutionStep where
  index : ℕ
  step : ExecutionInput

namespace Rows

variable (s : Rows)

/-- `roleAssignmentColumns` of a role. -/
def roleAssignment (id : RoleId) : Option RoleAssignment :=
  (s ⟨.roles, id⟩ : Option Role).map fun role ↦
    { id := id, name := role.name, clientId := role.clientId
      clientKey := role.clientId.bind fun client ↦ s ⟨.clients, client⟩ }

/-- The role, when a row links it. -/
def assigned (subject : SubjectId) (id : RoleId) : Option RoleAssignment :=
  if (s ⟨.subjectRoles, (subject, id)⟩ : Option Unit).isSome then roleAssignment s id else none

def mapped (group : GroupId) (id : RoleId) : Option RoleAssignment :=
  if (s ⟨.groupRoles, (group, id)⟩ : Option Unit).isSome then roleAssignment s id else none

def membership (subject : SubjectId) (id : GroupId) : Option GroupFields :=
  if (s ⟨.subjectGroups, (subject, id)⟩ : Option Unit).isSome then
    (s ⟨.groups, id⟩ : Option Group).map fun group ↦ ⟨id, group⟩
  else none

def owes (subject : SubjectId) (action : RequiredAction) : Bool :=
  (s ⟨.userRequiredActions, (subject, action)⟩ : Option Unit).isSome

def execution (index : ℕ) : Option ExecutionStep :=
  (s ⟨.authenticationExecutions, index⟩ : Option ExecutionInput).map fun step ↦ ⟨index, step⟩

def draft (scope : ThemeScope) : Option Record := s ⟨.themeDrafts, scope⟩

end Rows

/-- A list in the order of its ids, of all that there is. -/
def Lists {α : Type} (id : α → ℕ) (items : List α) (here : ℕ → Option α) : Prop :=
  items.Pairwise (fun a b ↦ id a < id b) ∧ ∀ a, a ∈ items ↔ here (id a) = some a

/-! ### Statements -/

inductive Op where
  | lockAdministrators
  | hasEnabledHolder
  | lockSubject (id : SubjectId)
  | lockGroup (id : GroupId)
  | targetOverreach (id : SubjectId)
  | assignedRoles (id : SubjectId)
  | mappedRoles (id : GroupId)
  | rolesById (ids : List RoleId)
  | overreach (ids : List ℕ)
  | lockDefaultReach
  | holdsDefaultGroup (id : GroupId)
  | deleteSubjectRoles (id : SubjectId)
  | assignToSubject (id : SubjectId) (role : RoleId)
  | deleteGroupRoles (id : GroupId)
  | mapToGroup (id : GroupId) (role : RoleId)
  | groupsOfSubject (id : SubjectId)
  | groupById (id : GroupId)
  | deleteSubjectGroups (id : SubjectId)
  | join (id : SubjectId) (group : GroupId)
  | pendingFor (id : SubjectId)
  | deleteRequiredActions (id : SubjectId)
  | insertRequiredAction (id : SubjectId) (action : RequiredAction)
  | lockForTenant
  | forTenant
  /-- The rows of the flow, for update. -/
  | lockExecutions
  | deleteExecutions
  | insertExecutions (steps : List ExecutionInput)
  | clientById (id : ClientDbId)
  | lockScope (scope : ThemeScope)
  | lockedDraft (scope : ThemeScope)
  | holdAssets (body : Record)
  | insertDraft (scope : ThemeScope) (body : Record)
  | updateDraft (scope : ThemeScope) (body : Record)
  | draft (scope : ThemeScope)

namespace Op

@[reducible] def Answer : Op → Type
  | lockAdministrators | lockDefaultReach | lockForTenant | lockScope _ => Unit
  | hasEnabledHolder | lockSubject _ | lockGroup _ | holdsDefaultGroup _ => Bool
  | targetOverreach _ | overreach _ => List Utf16
  | assignedRoles _ | mappedRoles _ => List RoleAssignment
  | rolesById _ => List RoleId
  | deleteSubjectRoles _ | deleteGroupRoles _ | deleteSubjectGroups _ => Unit
  | assignToSubject .. | mapToGroup .. | join .. | insertRequiredAction .. => Bool
  | groupsOfSubject _ => List GroupFields
  | groupById _ => Option GroupFields
  | pendingFor _ => List RequiredAction
  | deleteRequiredActions _ | lockExecutions | deleteExecutions => Unit
  | insertExecutions _ => Bool
  | forTenant => List ExecutionStep
  | clientById _ => Bool
  | lockedDraft _ | draft _ => Option Record
  | holdAssets _ => Bool
  | insertDraft .. => Bool
  | updateDraft .. => Unit

/-- No row of the flow has the index of a step. -/
def free (rows : Rows) (steps : List ExecutionInput) : Bool :=
  (List.range steps.length).all fun index ↦ (rows.execution index).isNone

def Answers : (op : Op) → Rows → op.Answer → Prop
  | lockSubject id, rows, a => a = (rows ⟨.subjects, id⟩ : Option Unit).isSome
  | lockGroup id, rows, a => a = (rows ⟨.groups, id⟩ : Option Group).isSome
  | assignedRoles id, rows, a => Lists RoleAssignment.id a (rows.assigned id)
  | mappedRoles id, rows, a => Lists RoleAssignment.id a (rows.mapped id)
  | rolesById ids, rows, a =>
    ∀ id, id ∈ a ↔ id ∈ ids ∧ (rows ⟨.roles, id⟩ : Option Role).isSome = true
  | assignToSubject id role, rows, a => a = (rows ⟨.subjectRoles, (id, role)⟩ : Option Unit).isNone
  | mapToGroup id role, rows, a => a = (rows ⟨.groupRoles, (id, role)⟩ : Option Unit).isNone
  | groupsOfSubject id, rows, a => Lists GroupFields.id a (rows.membership id)
  | groupById id, rows, a => a = (rows ⟨.groups, id⟩ : Option Group).map fun group ↦ ⟨id, group⟩
  | join id group, rows, a => a = (rows ⟨.subjectGroups, (id, group)⟩ : Option Unit).isNone
  | pendingFor id, rows, a => a.Nodup ∧ ∀ action, action ∈ a ↔ rows.owes id action = true
  | insertRequiredAction id action, rows, a => a = !rows.owes id action
  | forTenant, rows, a => Lists ExecutionStep.index a rows.execution
  | insertExecutions steps, rows, a => a = free rows steps
  | clientById id, rows, a => a = (rows ⟨.clients, id⟩ : Option Utf16).isSome
  | lockedDraft scope, rows, a | draft scope, rows, a => a = rows.draft scope
  | insertDraft scope _, rows, a => a = (rows.draft scope).isNone
  | _, _, _ => True

def effect : Op → Rows → layout.Change
  | lockAdministrators, _ => Layout.put (L := layout) .administrators () none
  | lockDefaultReach, _ => Layout.put (L := layout) .defaultReach () none
  | lockForTenant, _ => Layout.put (L := layout) .flowLock () none
  | lockScope scope, _ => Layout.put (L := layout) .themeLock scope none
  | lockSubject id, rows => Layout.lock (L := layout) .subjects id rows
  | lockGroup id, rows => Layout.lock (L := layout) .groups id rows
  | deleteSubjectRoles id, rows =>
    Layout.delete (L := layout) .subjectRoles (fun key _ ↦ key.1 == id) rows
  | assignToSubject id role, rows =>
    Layout.insert (L := layout) .subjectRoles (id, role) () rows
  | deleteGroupRoles id, rows =>
    Layout.delete (L := layout) .groupRoles (fun key _ ↦ key.1 == id) rows
  | mapToGroup id role, rows => Layout.insert (L := layout) .groupRoles (id, role) () rows
  | deleteSubjectGroups id, rows =>
    Layout.delete (L := layout) .subjectGroups (fun key _ ↦ key.1 == id) rows
  | join id group, rows => Layout.insert (L := layout) .subjectGroups (id, group) () rows
  | deleteRequiredActions id, rows =>
    Layout.delete (L := layout) .userRequiredActions (fun key _ ↦ key.1 == id) rows
  | insertRequiredAction id action, rows =>
    Layout.insert (L := layout) .userRequiredActions (id, action) () rows
  | lockExecutions, rows =>
    Layout.update (L := layout) .authenticationExecutions (fun _ _ ↦ true) (fun row ↦ row) rows
  | deleteExecutions, rows =>
    Layout.delete (L := layout) .authenticationExecutions (fun _ _ ↦ true) rows
  | insertExecutions steps, rows =>
    Layout.onTable (L := layout) .authenticationExecutions fun index ↦
      if free rows steps then (steps[index]?).map some else none
  | lockedDraft scope, rows => Layout.lock (L := layout) .themeDrafts scope rows
  | insertDraft scope body, rows => Layout.insert (L := layout) .themeDrafts scope body rows
  | updateDraft scope body, rows =>
    Layout.update (L := layout) .themeDrafts (fun id _ ↦ decide (id = scope)) (fun _ ↦ body) rows
  | _, _ => fun _ ↦ none

end Op

abbrev database : Database where
  Key := layout.Key
  Cell := fun k ↦ Option (layout.Row k.1)
  Op := Op
  Answer := Op.Answer
  Answers := Op.Answers
  effect := Op.effect

/-! ### Wire shapes -/

/-- The ids of rows: how one is printed, and what text names which. -/
structure Uuids where
  spell : ℕ → Utf16
  /-- A text in either case, when it is one. -/
  parse : Utf16 → Option ℕ
  parse_spell : ∀ id, parse (spell id) = some id

/-- A value or null. -/
def optionally {α : Type} (record : α → Record) : Option α → Record
  | none => .null
  | some a => record a

section Shapes

variable (uuids : Uuids)

def roleRecord (role : RoleAssignment) : Record :=
  .object [
    (ofAscii "id", .string (uuids.spell role.id)),
    (ofAscii "name", .string role.name),
    (ofAscii "client_id", optionally (fun id ↦ .string (uuids.spell id)) role.clientId),
    (ofAscii "client_key", optionally .string role.clientKey)]

/-- `groupWireShape` -/
def groupRecord (fields : GroupFields) : Record :=
  .object [
    (ofAscii "id", .string (uuids.spell fields.id)),
    (ofAscii "name", .string fields.group.name),
    (ofAscii "description", optionally .string fields.group.description),
    (ofAscii "parent_id", optionally (fun id ↦ .string (uuids.spell id)) fields.group.parentId),
    (ofAscii "default_for_new_subjects", .bool fields.group.defaultForNewSubjects),
    (ofAscii "path", .string fields.group.path),
    (ofAscii "created_at", .string fields.group.createdAt)]

def requirementText : Requirement → Utf16
  | .required => ofAscii "required"
  | .alternative => ofAscii "alternative"
  | .conditional => ofAscii "conditional"
  | .disabled => ofAscii "disabled"

/-- `toWireShape` -/
def stepRecord (step : ExecutionStep) : Record :=
  .object [
    (ofAscii "index", .number step.index),
    (ofAscii "authenticator", .string step.step.authenticator),
    (ofAscii "requirement", .string (requirementText step.step.requirement))]

def RequiredAction.text : RequiredAction → Utf16
  | updatePassword => ofAscii "update-password"
  | configureTotp => ofAscii "configure-totp"
  | configurePasskey => ofAscii "configure-passkey"
  | generateRecoveryCodes => ofAscii "generate-recovery-codes"

def itemsRecord (items : List Record) : Record := .object [(ofAscii "items", .array items)]

/-- What `requiredActionsEtag` is of: the actions sorted, in whatever order they were read. -/
def actionsRecord (actions : List RequiredAction) : Record :=
  .object [(ofAscii "actions", .array ((sortTexts (actions.map RequiredAction.text)).map .string))]

end Shapes

/-! ### Resources -/

/-- What one request replaces whole. -/
inductive Resource where
  | subjectRoles (id : SubjectId)
  | groupRoles (id : GroupId)
  | requiredActions (id : SubjectId)
  | subjectGroups (id : SubjectId)
  | flow
  | themeDraft (scope : ThemeScope)
  deriving DecidableEq

/-- The row whose lock a request takes before it reads what it replaces. -/
def Resource.lock : Resource → layout.Key
  | subjectRoles id | requiredActions id | subjectGroups id => ⟨.subjects, id⟩
  | groupRoles id => ⟨.groups, id⟩
  | flow => ⟨.flowLock, ()⟩
  | themeDraft scope => ⟨.themeLock, scope⟩

structure Platform where
  sha : Sha256
  uuids : Uuids
  /-- What a flow is refused for as it is sent: `validateFlowSteps`, `startsALogin`. -/
  flowRefusal : List ExecutionInput → Option Utf16
  /-- `parseThemeBody`, nothing being a body that is refused. -/
  parseThemeBody : Record → Option Record

/-- `etagOf` of `domain-theme/src/repository/themes.ts`. -/
def draftEtag (sha : Sha256) (body : Record) : Utf16 := sha.hex (stringify body)

/-! ### Requests -/

structure SetRolesInput where
  subjectId : SubjectId
  roleIds : List Utf16
  callerCapabilities : List Utf16
  ifMatch : Option Utf16

structure SetGroupRolesInput where
  groupId : GroupId
  roleIds : List Utf16
  callerCapabilities : List Utf16
  ifMatch : Option Utf16

structure SetRequiredActionsInput where
  subjectId : SubjectId
  actions : List RequiredAction
  callerCapabilities : List Utf16
  ifMatch : Option Utf16

structure SetSubjectGroupsInput where
  subjectId : SubjectId
  groupIds : List Utf16
  callerCapabilities : List Utf16
  ifMatch : Option Utf16

structure ReplaceFlowInput where
  steps : List ExecutionInput
  ifMatch : Option Utf16

structure SaveDraftInput where
  target : ThemeScope
  body : Record
  ifMatch : Option Utf16

inductive Outcome where
  | notFound
  | targetCeiling (denied : List Utf16)
  | unknownRole (roleIds : List Utf16)
  | unknownGroup (groupIds : List Utf16)
  | capabilityCeiling (requested : List Utf16) (removed : List Utf16)
  | defaultGroupCapability (capabilities : List Utf16)
  | flowRefused (kind : Utf16)
  | invalid
  | preconditionRequired
  | preconditionFailed
  | lastAdministrator
  /-- What the resource holds now, and its tag. -/
  | ok (record : Record) (etag : Utf16)

inductive Failure where
  /-- A row that is there already, or one that must be there and is not. -/
  | violation

abbrev Tx := Program database Failure

abbrev run (op : Op) : Tx op.Answer := @Program.ask database Failure op

/-- `overreach` -/
def overreach (requested held : List Utf16) : List Utf16 :=
  requested.filter fun c ↦ !held.contains c

section Requests

variable (P : Platform)

/-- The refusal of a precondition, or what follows it. -/
def guarded (ifMatch : Option Utf16) (current : Utf16) (write : Tx Outcome) : Tx Outcome :=
  match requiredPrecondition ifMatch current with
  | .required => pure .preconditionRequired
  | .failed => pure .preconditionFailed
  | .ok => write

/-- Rows inserted one after another. -/
def insertAll {α : Type} (insert : α → Tx Bool) : List α → Tx Unit
  | [] => pure ()
  | a :: rest => do
    let inserted ← insert a
    if inserted then insertAll insert rest else throw .violation

def guardLastAdministrator (write : Tx Outcome) : Tx Outcome := do
  run .lockAdministrators
  let held ← run .hasEnabledHolder
  if held then
    .savepoint fun saved ↦ do
      let outcome ← write
      let still ← run .hasEnabledHolder
      if still then pure outcome else .rollbackTo saved (pure .lastAdministrator)
  else write

/-- The texts that name no role there is, and the roles the others name. -/
def missingRoles (roleIds : List Utf16) : Tx (List Utf16 × List RoleId) := do
  let unique := roleIds.eraseDups
  let found ← run (.rolesById (unique.filterMap P.uuids.parse))
  let foundIds := found.map P.uuids.spell
  pure (unique.filter (fun text ↦ !foundIds.contains text), unique.filterMap P.uuids.parse)

def setRolesUnguarded (input : SetRolesInput) : Tx Outcome := do
  let there ← run (.lockSubject input.subjectId)
  if !there then pure .notFound
  else do
    let held ← run (.targetOverreach input.subjectId)
    let refused := overreach held input.callerCapabilities
    if refused ≠ [] then pure (.targetCeiling refused)
    else do
      let current ← run (.assignedRoles input.subjectId)
      let etag := etagOf P.sha (itemsRecord (current.map (roleRecord P.uuids)))
      guarded input.ifMatch etag do
        let (missing, ids) ← missingRoles P input.roleIds
        if missing ≠ [] then pure (.unknownRole missing)
        else do
          let requested ← run (.overreach ids)
          let denied := overreach requested input.callerCapabilities
          if denied ≠ [] then pure (.capabilityCeiling denied [])
          else do
            run (.deleteSubjectRoles input.subjectId)
            insertAll (fun id ↦ run (.assignToSubject input.subjectId id)) ids
            let assigned ← run (.assignedRoles input.subjectId)
            let record := itemsRecord (assigned.map (roleRecord P.uuids))
            pure (.ok record (etagOf P.sha record))

def setRoles (input : SetRolesInput) : Tx Outcome :=
  guardLastAdministrator (setRolesUnguarded P input)

/-- What the roles reach, when a default group hands them out. -/
def reachedByDefault (default : Bool) (ids : List RoleId) : Tx (List Utf16) :=
  if default then run (.overreach ids) else pure []

def setGroupRolesUnguarded (input : SetGroupRolesInput) : Tx Outcome := do
  let there ← run (.lockGroup input.groupId)
  if !there then pure .notFound
  else do
    let current ← run (.mappedRoles input.groupId)
    let etag := etagOf P.sha (itemsRecord (current.map (roleRecord P.uuids)))
    guarded input.ifMatch etag do
      let (missing, ids) ← missingRoles P input.roleIds
      if missing ≠ [] then pure (.unknownRole missing)
      else do
        let before ← run (.mappedRoles input.groupId)
        let currentIds := before.map RoleAssignment.id
        let granted ← run (.overreach (ids.filter fun id ↦ !currentIds.contains id))
        let removed ← run (.overreach (currentIds.filter fun id ↦ !ids.contains id))
        let granted := overreach granted input.callerCapabilities
        let removed := overreach removed input.callerCapabilities
        if granted ++ removed ≠ [] then pure (.capabilityCeiling granted removed)
        else do
          run .lockDefaultReach
          let default ← run (.holdsDefaultGroup input.groupId)
          let capabilities ← reachedByDefault default ids
          if capabilities ≠ [] then pure (.defaultGroupCapability (sortTexts capabilities))
          else do
            let group ← run (.groupById input.groupId)
            if group.isNone then throw .violation
            else do
              run (.deleteGroupRoles input.groupId)
              insertAll (fun id ↦ run (.mapToGroup input.groupId id)) ids
              let mapped ← run (.mappedRoles input.groupId)
              let record := itemsRecord (mapped.map (roleRecord P.uuids))
              pure (.ok record (etagOf P.sha record))

def setGroupRoles (input : SetGroupRolesInput) : Tx Outcome :=
  guardLastAdministrator (setGroupRolesUnguarded P input)

def setRequiredActions (input : SetRequiredActionsInput) : Tx Outcome := do
  let there ← run (.lockSubject input.subjectId)
  if !there then pure .notFound
  else do
    let held ← run (.targetOverreach input.subjectId)
    let refused := overreach held input.callerCapabilities
    if refused ≠ [] then pure (.targetCeiling refused)
    else do
      let current ← run (.pendingFor input.subjectId)
      guarded input.ifMatch (etagOf P.sha (actionsRecord current)) do
        run (.deleteRequiredActions input.subjectId)
        insertAll (fun action ↦ run (.insertRequiredAction input.subjectId action))
          input.actions.eraseDups
        let actions ← run (.pendingFor input.subjectId)
        let record := actionsRecord actions
        pure (.ok record (etagOf P.sha record))

/-- The loop over the groups asked for: the texts that name none, and the groups the others
name. -/
def missingGroups : List Utf16 → List Utf16 → List GroupId → Tx (List Utf16 × List GroupId)
  | [], missing, found => pure (missing, found)
  | text :: rest, missing, found =>
    match P.uuids.parse text with
    | none => missingGroups rest (missing ++ [text]) found
    | some id => do
      let group ← run (.groupById id)
      match group with
      | none => missingGroups rest (missing ++ [text]) found
      | some group =>
        missingGroups rest missing (if found.contains group.id then found else found ++ [group.id])

/-- One round of the loop of `groupRepository(tx).setSubjectGroups`. -/
def joinGroup (subjectId : SubjectId) (groupId : GroupId) : Tx Bool := do
  let group ← run (.groupById groupId)
  if group.isNone then throw .violation else run (.join subjectId groupId)

def setSubjectGroupsUnguarded (input : SetSubjectGroupsInput) : Tx Outcome := do
  let there ← run (.lockSubject input.subjectId)
  if !there then pure .notFound
  else do
    let held ← run (.targetOverreach input.subjectId)
    let refused := overreach held input.callerCapabilities
    if refused ≠ [] then pure (.targetCeiling refused)
    else do
      let current ← run (.groupsOfSubject input.subjectId)
      let etag := etagOf P.sha (itemsRecord (current.map (groupRecord P.uuids)))
      guarded input.ifMatch etag do
        let (missing, found) ← missingGroups P input.groupIds [] []
        if missing ≠ [] then pure (.unknownGroup missing.eraseDups)
        else do
          let requested ← run (.overreach found)
          let denied := overreach requested input.callerCapabilities
          if denied ≠ [] then pure (.capabilityCeiling denied [])
          else do
            run (.deleteSubjectGroups input.subjectId)
            insertAll (joinGroup input.subjectId) found
            let updated ← run (.groupsOfSubject input.subjectId)
            let record := itemsRecord (updated.map (groupRecord P.uuids))
            pure (.ok record (etagOf P.sha record))

def setSubjectGroups (input : SetSubjectGroupsInput) : Tx Outcome :=
  guardLastAdministrator (setSubjectGroupsUnguarded P input)

/-- The steps as they are stored, in their order. -/
def storedSteps (steps : List ExecutionInput) : List ExecutionStep :=
  steps.zipIdx.map fun (step, index) ↦ ⟨index, step⟩

/-- `executionRepository(tx).replaceForTenant` -/
def replaceForTenant (steps : List ExecutionInput) : Tx (List ExecutionStep) := do
  run .lockForTenant
  run .lockExecutions
  run .deleteExecutions
  if steps = [] then pure []
  else do
    let inserted ← run (.insertExecutions steps)
    if inserted then pure (storedSteps steps) else throw .violation

def replaceFlow (input : ReplaceFlowInput) : Tx Outcome :=
  match P.flowRefusal input.steps with
  | some kind => pure (.flowRefused kind)
  | none => do
    run .lockForTenant
    let before ← run .forTenant
    guarded input.ifMatch (etagOf P.sha (itemsRecord (before.map stepRecord))) do
      let rows ← replaceForTenant input.steps
      let record := itemsRecord (rows.map stepRecord)
      pure (.ok record (etagOf P.sha record))

def clientExists (target : ThemeScope) : Tx Bool :=
  match target with
  | none => pure true
  | some id => run (.clientById id)

/-- `themeRepository(tx).saveDraft`: whether it saved. -/
def saveDraftRow (scope : ThemeScope) (body : Record) (ifMatch : Option Utf16) : Tx Bool := do
  let current ← run (.lockedDraft scope)
  match current with
  | none => if ifMatch.isSome then pure false else run (.insertDraft scope body)
  | some stored =>
    if ifMatch ≠ some (draftEtag P.sha stored) then pure false
    else do
      run (.updateDraft scope body)
      pure true

/-- What of `saveDraft` follows the precondition. -/
def saveChecked (target : ThemeScope) (body : Record) (current : Option Record) : Tx Outcome := do
  let errors ← run (.holdAssets body)
  if errors then pure .invalid
  else do
    let saved ← saveDraftRow P target body (current.map (draftEtag P.sha))
    if !saved then pure .preconditionFailed
    else do
      let draft ← run (.draft target)
      match draft with
      | none => throw .violation
      | some draft => pure (.ok draft (quotedTag (draftEtag P.sha draft)))

def saveDraft (input : SaveDraftInput) : Tx Outcome := do
  let there ← clientExists input.target
  if !there then pure .notFound
  else
    match P.parseThemeBody input.body with
    | none => pure .invalid
    | some body => do
      run (.lockScope input.target)
      let current ← run (.lockedDraft input.target)
      match current with
      | none =>
        if input.ifMatch.isSome then pure .preconditionFailed
        else saveChecked P input.target body none
      | some stored =>
        guarded input.ifMatch (quotedTag (draftEtag P.sha stored))
          (saveChecked P input.target body (some stored))

inductive Call where
  | setRoles (input : SetRolesInput)
  | setGroupRoles (input : SetGroupRolesInput)
  | setRequiredActions (input : SetRequiredActionsInput)
  | setSubjectGroups (input : SetSubjectGroupsInput)
  | replaceFlow (input : ReplaceFlowInput)
  | saveDraft (input : SaveDraftInput)

namespace Call

def resource : Call → Resource
  | setRoles input => .subjectRoles input.subjectId
  | setGroupRoles input => .groupRoles input.groupId
  | setRequiredActions input => .requiredActions input.subjectId
  | setSubjectGroups input => .subjectGroups input.subjectId
  | replaceFlow _ => .flow
  | saveDraft input => .themeDraft input.target

def ifMatch : Call → Option Utf16
  | setRoles input => input.ifMatch
  | setGroupRoles input => input.ifMatch
  | setRequiredActions input => input.ifMatch
  | setSubjectGroups input => input.ifMatch
  | replaceFlow input => input.ifMatch
  | saveDraft input => input.ifMatch

def body : Call → Tx Outcome
  | setRoles input => Replacements.setRoles P input
  | setGroupRoles input => Replacements.setGroupRoles P input
  | setRequiredActions input => Replacements.setRequiredActions P input
  | setSubjectGroups input => Replacements.setSubjectGroups P input
  | replaceFlow input => Replacements.replaceFlow P input
  | saveDraft input => Replacements.saveDraft P input

end Call

abbrev replacements : System where
  db := database
  Call := Call
  Outcome := Outcome
  Failure := Failure
  body := Call.body P

end Requests

end Odudu.ProtocolAdmin.Replacements
