import Odudu.DomainAuthz.GroupTree
import Odudu.ProtocolAdmin.Replacements
import Odudu.ProtocolAdmin.Settings

/-!
# Groups of a tenant

The use cases that make, move and delete groups (`usecase/groups.ts`), with the repository functions
they call (`repository/groups.ts`), over the tree of groups.  A name is amended by none of them.

An id of a request is what its path or its body holds; the database reads it whatever the case of
its letters, and prints it in lower case.  A path's id is one by the route's own check.  The audit
and what a refusal to a group's last administrator says are left out.
-/

set_option autoImplicit false

namespace Odudu.ProtocolAdmin.Groups

open DomainAuthz.GroupTree ReadCommitted Program Texts Etag
open ProtocolAdmin.Settings (containsBidiControl BIDI_REFUSED_MESSAGE)

/-! ### Ids -/

def isHexUnit (u : UInt16) : Bool :=
  isDigitUnit u || (decide (0x41 ≤ u.toNat) && decide (u.toNat ≤ 0x46)) ||
    (decide (0x61 ≤ u.toNat) && decide (u.toNat ≤ 0x66))

def isUuid (value : Utf16) : Bool :=
  decide ((value.splitOn 0x2D).map List.length = [8, 4, 4, 4, 12]) &&
    value.all fun u ↦ u == 0x2D || isHexUnit u

/-- The id that a text of a request is for the database. -/
def uuid (text : Utf16) : Uuid := text.map lowerUnit

/-! ### Fields -/

def GROUP_LIMIT : ℕ := 10000

def DESCRIPTION_MAX : ℕ := 1000

def GROUP_FIELDS : List Utf16 := [
  ofAscii "id", ofAscii "name", ofAscii "description", ofAscii "parent_id",
  ofAscii "default_for_new_subjects", ofAscii "path", ofAscii "created_at", ofAscii "admin_reach",
  ofAscii "subtree_admin_reach", ofAscii "holds_default_group"]

/-- `REFUSALS` -/
def refusalFor (field : Utf16) : Option Utf16 :=
  List.lookup field [
    (ofAscii "id", ofAscii
      "identity: changing it breaks every group_roles and subject_groups edge naming this group"),
    (ofAscii "name", ofAscii ("name is embedded in every descendant path and in the groups claim " ++
      "a relying party matches on; a rename is not offered, by ADR 0039: create a new group and " ++
      "move its members")),
    (ofAscii "path", ofAscii ("path is denormalized from name and parent_id; it is recomputed by " ++
      "reparenting, never written directly")),
    (ofAscii "default_for_new_subjects", ofAscii ("default_for_new_subjects changes who joins a " ++
      "group silently at signup; set it with PUT /admin/tenants/\x7btenant\x7d/groups/\x7bid\x7d/default, " ++
      "not a general amendment")),
    (ofAscii "created_at", ofAscii "created_at is history"),
    (ofAscii "admin_reach", ofAscii ("admin_reach is derived from the roles this group and every " ++
      "group above it map; change those instead")),
    (ofAscii "subtree_admin_reach", ofAscii ("subtree_admin_reach is derived from the roles mapped " ++
      "in and above this group\u2019s subtree; change those instead")),
    (ofAscii "holds_default_group", ofAscii ("holds_default_group is derived from the default " ++
      "groups at and beneath this one; set it with PUT /admin/tenants/\x7btenant\x7d/groups/\x7bid\x7d/default " ++
      "on that group"))]

def AMENDABLE_GROUP_FIELDS : List Utf16 := GROUP_FIELDS.filter fun field ↦ refusalFor field == none

def refusesBidi (next current : Option Utf16) : Bool :=
  next.any fun value ↦ decide (next ≠ current) && containsBidiControl value

def containsNul (value : Utf16) : Bool := value.contains 0

def NUL_REFUSED_MESSAGE : Utf16 := ofAscii "must not contain a NUL (U+0000) character"

/-- The description that an amendment supplies, or what it is refused for. -/
def checkDescription (value : Record) (current : Option Utf16) : Except Utf16 (Option Utf16) :=
  match value with
  | .null => .ok none
  | .string text =>
    if containsNul text then .error (ofAscii "description " ++ NUL_REFUSED_MESSAGE)
    else if refusesBidi (some text) current then .error BIDI_REFUSED_MESSAGE
    else if text.length > DESCRIPTION_MAX then
      .error (ofAscii "description must be at most 1000 characters")
    else .ok (some text)
  | _ => .error (ofAscii "description must be a string or null")

def groupWireShape (group : GroupRecord) : Record :=
  .object [
    (ofAscii "id", .string group.id),
    (ofAscii "name", .string (units group.row.name)),
    (ofAscii "description", (group.row.description.map units).elim .null .string),
    (ofAscii "parent_id", group.row.parentId.elim .null .string),
    (ofAscii "default_for_new_subjects", .bool group.row.defaultForNewSubjects),
    (ofAscii "path", .string (units group.row.path)),
    (ofAscii "created_at", .string group.row.createdAt)]

/-! ### Requests -/

structure CreateGroupInput where
  name : Utf16
  description : Option Utf16
  parentId : Option Utf16
  callerCapabilities : List Utf16
  /-- What `newId` gives. -/
  newId : Uuid
  /-- What the clock of the database gives. -/
  createdAt : Utf16

structure AmendGroupInput where
  groupId : Utf16
  values : List (Utf16 × Record)
  ifMatch : Option Utf16
  callerCapabilities : List Utf16

structure DeleteGroupInput where
  groupId : Utf16
  callerCapabilities : List Utf16

inductive Outcome where
  | groupLimit
  | capabilityCeiling (requested removed : List Utf16)
  | notFound
  | unknownParent
  | refusedField (field reason : Utf16)
  | invalidValue (field description : Utf16)
  | preconditionFailed
  | cycle
  | nameTaken (name : Utf16)
  | defaultGroupCapability (capabilities : List Utf16)
  | lastAdministrator
  | created (group : Record)
  | amended (group : Record) (etag : Utf16)
  | deleted

inductive Failure where
  | groupNotFound
  | bidiControl (field : Utf16)
  /-- A constraint that is broken. -/
  | violation
  /-- A group that is not found right after its own amendment. -/
  | vanished

abbrev Tx := Program groupDatabase Failure

abbrev run (op : GroupOp) : Tx op.Answer := @Program.ask groupDatabase Failure op

def requireById (groupId : Utf16) : Tx GroupRecord := do
  let found ← run (.byId (uuid groupId))
  match found with
  | some group => pure group
  | none => throw .groupNotFound

def refuseBidiControls (field : Utf16) (value current : Option Utf16) : Tx Unit :=
  if refusesBidi value current then throw (.bidiControl field) else pure ()

/-! ### Creating -/

/-- The parent, when one is named. -/
def parentOf : Option Utf16 → Tx (Option GroupRecord)
  | none => pure none
  | some parentId => do
    let parent ← requireById parentId
    pure (some parent)

/-- `groupRepository(tx).create` -/
def create (input : CreateGroupInput) : Tx GroupRecord := do
  refuseBidiControls (ofAscii "name") (some input.name) none
  refuseBidiControls (ofAscii "description") input.description none
  let parent ← parentOf input.parentId
  let inserted ← run (.insert input.newId parent input.name input.description input.createdAt)
  if inserted then
    pure ⟨input.newId, GroupOp.inserted parent input.name input.description input.createdAt⟩
  else throw .violation

/-- What the parent's roles reach beyond the caller's own capabilities. -/
def deniedUnder (input : CreateGroupInput) : Tx (List Utf16) :=
  match input.parentId with
  | none => pure []
  | some parentId =>
    if !isUuid parentId then throw .groupNotFound
    else do
      let requested ← run (.capabilitiesOfGroupsAndAncestors [uuid parentId])
      pure (Replacements.overreach requested input.callerCapabilities)

def createGroup (input : CreateGroupInput) : Tx Outcome := do
  run .lockCreation
  let held ← run (.countUpTo GROUP_LIMIT)
  if held ≥ GROUP_LIMIT then pure .groupLimit
  else do
    let denied ← deniedUnder input
    if denied ≠ [] then pure (.capabilityCeiling denied [])
    else do
      let created ← create input
      pure (.created (groupWireShape created))

/-! ### Amending -/

def guardLastAdministrator (write : Tx Outcome) : Tx Outcome := do
  run .lockAdministrators
  let held ← run .hasEnabledHolder
  if held then
    .savepoint fun saved ↦ do
      let outcome ← write
      let still ← run .hasEnabledHolder
      if still then pure outcome else .rollbackTo saved (pure .lastAdministrator)
  else write

/-- The amendment of a field: none where the request does not hold it. -/
abbrev Amended := Option (Option Utf16)

def amendedDescription (input : AmendGroupInput) (locked : GroupRecord) : Except Utf16 Amended :=
  match input.values.lookup (ofAscii "description") with
  | none => .ok none
  | some value =>
    match checkDescription value (locked.row.description.map units) with
    | .error message => .error message
    | .ok description => .ok (some description)

def AmendGroupInput.parent (input : AmendGroupInput) : Except Utf16 Amended :=
  match input.values.lookup (ofAscii "parent_id") with
  | none => .ok none
  | some .null => .ok (some none)
  | some (.string text) => .ok (some (some text))
  | some _ => .error (ofAscii "parent_id must be a string or null")

/-- A parent that is named and is no group. -/
def unknownParent : Amended → Tx Bool
  | some (some parentId) =>
    if !isUuid parentId then pure true
    else do
      let found ← run (.byId (uuid parentId))
      pure found.isNone
  | _ => pure false

/-- The path of a group found, or the empty one. -/
def pathOf (group : Option GroupRecord) : Utf16 := group.elim [] fun group ↦ units group.row.path

/-- A sibling that holds the name. -/
def nameTaken (input : AmendGroupInput) (locked : GroupRecord) : Amended → Tx Bool
  | none => pure false
  | some parentId =>
    if parentId = locked.row.parentId then pure false
    else do
      let above ← (match parentId with
        | none => pure none
        | some parentId => run (.byId (uuid parentId)))
      let taken ← run (.byPath (pathBelow (pathOf above) (units locked.row.name)))
      pure (taken.any fun group ↦ group.id != input.groupId)

/-- What the groups reach, when there are any. -/
def capabilitiesOf : Option Uuid → Tx (List Utf16)
  | none => pure []
  | some groupId => run (.capabilitiesOfGroupsAndAncestors [groupId])

/-- What a move grants, and what it takes away. -/
def moveOverreach (input : AmendGroupInput) (locked : GroupRecord) :
    Amended → Tx (List Utf16 × List Utf16)
  | none => pure ([], [])
  | some parentId => do
    let gained ← capabilitiesOf (parentId.map uuid)
    let lost ← (if locked.row.parentId = parentId then pure [] else capabilitiesOf locked.row.parentId)
    pure (Replacements.overreach gained input.callerCapabilities,
      Replacements.overreach lost input.callerCapabilities)

def holdsDefaultGroup (groupId : Utf16) : Tx Bool := do
  let defaults ← run .defaultsForTenant
  if defaults = [] then pure false
  else do
    let below ← run (.descendantsOf (uuid groupId))
    pure (defaults.any fun id ↦ (groupId :: below).contains id)

def lockSubtree (below : List Uuid) : Tx Unit :=
  if below ≠ [] then run (.lockRows (sortTexts below)) else pure ()

/-- The rows that a move rewrites are locked, and then what default groups may reach. -/
def defaultOverreach (input : AmendGroupInput) : Amended → Tx (List Utf16)
  | some (some parentId) => do
    let below ← run (.descendantsOf (uuid input.groupId))
    lockSubtree below
    run (.keyShare (uuid parentId))
    run .lockDefaultReach
    let holds ← holdsDefaultGroup input.groupId
    if holds then run (.capabilitiesOfGroupsAndAncestors [uuid parentId]) else pure []
  | _ => pure []

/-- How a write inside the savepoint went. -/
inductive Written where
  | done
  | cycle
  /-- A path that another group has. -/
  | taken

def setDescription (groupId : Utf16) (description : Option Utf16) : Tx Unit := do
  let held ← run (.byId (uuid groupId))
  refuseBidiControls (ofAscii "description") description
    (held.bind fun group ↦ group.row.description.map units)
  let written ← run (.setDescription (uuid groupId) description)
  if written then pure () else throw .groupNotFound

/-- The new parent is the group itself, or a group below it. -/
def reachesItself (groupId : Utf16) : Option Utf16 → Tx Bool
  | none => pure false
  | some newParentId => do
    let reachable ← run (.descendantsOf (uuid groupId))
    pure (newParentId == groupId || reachable.contains newParentId)

/-- `groupRepository(tx).reparent` -/
def reparent (groupId : Utf16) (newParentId : Option Utf16) : Tx Written := do
  let group ← requireById groupId
  let cyclic ← reachesItself groupId newParentId
  if cyclic then pure .cycle
  else do
    let parent ← parentOf newParentId
    let newOwnPath := pathBelow (pathOf parent) (units group.row.name)
    let oldPath := units group.row.path
    let written ← run (.setParent (uuid groupId) (newParentId.map uuid))
    if !written then throw .violation
    else do
      let rewritten ← run (.rewritePaths (uuid groupId) newOwnPath (oldPath.length + 1))
      pure (if rewritten then .done else .taken)

def describe (groupId : Utf16) : Amended → Tx Unit
  | none => pure ()
  | some description => setDescription groupId description

/-- What is written of an amendment. -/
def amendWritten (input : AmendGroupInput) (description parentId : Amended) : Tx Written := do
  describe input.groupId description
  match parentId with
  | none => pure .done
  | some parentId => reparent input.groupId parentId

section Amend

variable (sha : Sha256)

/-- What the amended group is answered with. -/
def readAmended (groupId : Utf16) : Tx Outcome := do
  let after ← run (.byId (uuid groupId))
  match after with
  | none => throw .vanished
  | some group => pure (.amended (groupWireShape group) (etagOf sha (groupWireShape group)))

/-- The checks on the parent, and the writes. -/
def amendLocked (input : AmendGroupInput) (locked : GroupRecord) (description parentId : Amended) :
    Tx Outcome := do
  let unknown ← unknownParent parentId
  if unknown then pure .unknownParent
  else do
    let taken ← nameTaken input locked parentId
    if taken then pure (.nameTaken (units locked.row.name))
    else do
      let (granted, removed) ← moveOverreach input locked parentId
      if granted ++ removed ≠ [] then pure (.capabilityCeiling granted removed)
      else do
        let capabilities ← defaultOverreach input parentId
        if capabilities ≠ [] then pure (.defaultGroupCapability (sortTexts capabilities))
        else
          .savepoint fun saved ↦ do
            let written ← amendWritten input description parentId
            match written with
            | .cycle => .rollbackTo saved (pure .cycle)
            | .taken => .rollbackTo saved (pure (.nameTaken (units locked.row.name)))
            | .done => readAmended sha input.groupId

def amendGroupUnguarded (input : AmendGroupInput) : Tx Outcome :=
  match (input.values.map Prod.fst).find? fun field ↦ !AMENDABLE_GROUP_FIELDS.contains field with
  | some field =>
    pure (.refusedField field ((refusalFor field).getD (field ++ ofAscii " is not a group field")))
  | none => do
    let found ← run (.lockGroupForAmend (uuid input.groupId))
    match found with
    | none => pure .notFound
    | some locked =>
      if tagMatches input.ifMatch (etagOf sha (groupWireShape locked)) = .mismatch then
        pure .preconditionFailed
      else
        match amendedDescription input locked, input.parent with
        | .error message, _ => pure (.invalidValue (ofAscii "description") message)
        | .ok _, .error message => pure (.invalidValue (ofAscii "parent_id") message)
        | .ok description, .ok parentId => amendLocked sha input locked description parentId

def amendGroup (input : AmendGroupInput) : Tx Outcome :=
  guardLastAdministrator (amendGroupUnguarded sha input)

end Amend

/-! ### Deleting -/

def capabilitiesOfSubtree (groupId : Utf16) : Tx (List Utf16) := do
  let below ← run (.descendantsOf (uuid groupId))
  run (.capabilitiesOfGroupsAndAncestors (uuid groupId :: below))

def deleteGroupUnguarded (input : DeleteGroupInput) : Tx Outcome := do
  let locked ← run (.lockGroupForAmend (uuid input.groupId))
  if locked.isNone then pure .notFound
  else do
    let held ← capabilitiesOfSubtree input.groupId
    let denied := Replacements.overreach held input.callerCapabilities
    if denied ≠ [] then pure (.capabilityCeiling [] denied)
    else do
      let deleted ← run (.delete (uuid input.groupId))
      if deleted then pure .deleted else pure .notFound

def deleteGroup (input : DeleteGroupInput) : Tx Outcome :=
  guardLastAdministrator (deleteGroupUnguarded input)

/-! ### The system -/

inductive Call where
  | create (input : CreateGroupInput)
  | amend (input : AmendGroupInput)
  | delete (input : DeleteGroupInput)

def Call.body (sha : Sha256) : Call → Tx Outcome
  | create input => createGroup input
  | amend input => amendGroup sha input
  | delete input => deleteGroup input

/-- The groups of a tenant, with the calls that make, move and delete them. -/
abbrev groups (sha : Sha256) : System where
  db := groupDatabase
  Call := Call
  Outcome := Outcome
  Failure := Failure
  body := Call.body sha

end Odudu.ProtocolAdmin.Groups
