import Odudu.Graphs.RecursiveUnion
import Odudu.ReadCommitted.Store
import Odudu.Texts.LengthPrefixed

/-!
# The tree of groups

The groups of a tenant as rows, and the statements that `repository/groups.ts` and its callers make
on them.  A row names its parent and holds a path, which no statement but these writes.  The
application has texts of UTF-16 units and the database has them of characters.

A key that a foreign key shares is written where a group is inserted under it, and where the row is
locked or written; groups are inserted one at a time, under a lock of their own.  The other share
locks are left out.  What a row is scanned for goes through the heap: every id that was ever
written.  What the roles of a tenant answer is left open, and so is what a write is refused for
besides the constraints on the tree.
-/

set_option autoImplicit false

namespace Odudu.DomainAuthz.GroupTree

open ReadCommitted Graphs Texts Relation

/-- A uuid, as the database prints it. -/
abbrev Uuid : Type := Utf16

/-- A text as the database has it. -/
abbrev Text : Type := List Char

/-- A text as it is read. -/
def units (text : Text) : Utf16 := text.flatMap charUnits

/-- A text as it is stored. -/
def stored (text : Utf16) : Text := (codePoints text).map CodePoint.char

/-- A row of `groups`, its instant of creation as it is printed. -/
structure GroupRow where
  parentId : Option Uuid
  name : Text
  description : Option Text
  defaultForNewSubjects : Bool
  path : Text
  createdAt : Utf16
  deriving DecidableEq

/-- A row that was read. -/
structure GroupRecord where
  id : Uuid
  row : GroupRow

inductive GroupKey where
  | row (id : Uuid)
  | shared (id : Uuid)
  | heap
  | creation
  | administrators
  | defaultReach
  deriving DecidableEq

@[reducible] def GroupKey.Cell : GroupKey → Type
  | row _ => Option GroupRow
  | heap => List Uuid
  | _ => Unit

abbrev GroupRows : Type := (k : GroupKey) → k.Cell

abbrev GroupWrites : Type := (k : GroupKey) → Option k.Cell

abbrev GroupRows.group (s : GroupRows) (id : Uuid) : Option GroupRow := s (.row id)

/-! ### The tree -/

/-- The groups directly under one. -/
def children (s : GroupRows) (id : Uuid) : List Uuid :=
  (s .heap).filter fun child ↦ (s.group child).any fun row ↦ row.parentId == some id

def descendantsOf (s : GroupRows) (startId : Uuid) : List Uuid :=
  RecursiveQuery.result { rows := s .heap, seed := children s startId, step := children s }

/-- The subtree that a move rewrites, and that a delete takes along. -/
def subtree (s : GroupRows) (groupId : Uuid) : List Uuid :=
  RecursiveQuery.result { rows := groupId :: s .heap, seed := [groupId], step := children s }

/-- The ids that are those of rows. -/
def existing (s : GroupRows) (ids : List Uuid) : List Uuid :=
  ids.filter fun id ↦ (s.group id).isSome

/-- The groups that new subjects join. -/
def defaults (s : GroupRows) : List Uuid :=
  (s .heap).filter fun id ↦ (s.group id).any GroupRow.defaultForNewSubjects

/-- A path below another one. -/
def pathUnder (above name : Text) : Text := above ++ '/' :: name

/-- `/` -/
def SLASH : UInt16 := 0x2F

/-- A path below another one, as the application makes it. -/
def pathBelow (above name : Utf16) : Utf16 := above ++ SLASH :: name

/-! ### Statements -/

/-- A statement. -/
inductive GroupOp where
  | lockCreation
  | lockAdministrators
  | lockDefaultReach
  | hasEnabledHolder
  | countUpTo (limit : ℕ)
  | capabilitiesOfGroupsAndAncestors (ids : List Uuid)
  | defaultsForTenant
  | byId (groupId : Uuid)
  | byPath (path : Utf16)
  | descendantsOf (startId : Uuid)
  /-- `SELECT ... FOR UPDATE` -/
  | lockGroupForAmend (groupId : Uuid)
  | lockRows (ids : List Uuid)
  /-- `SELECT ... FOR KEY SHARE` -/
  | keyShare (groupId : Uuid)
  /-- `INSERT`, under the parent as it was read. -/
  | insert (id : Uuid) (parent : Option GroupRecord) (name : Utf16) (description : Option Utf16)
      (createdAt : Utf16)
  | setDescription (groupId : Uuid) (description : Option Utf16)
  /-- `UPDATE groups SET parent_id = ...` -/
  | setParent (groupId : Uuid) (newParentId : Option Uuid)
  /-- `UPDATE groups SET path = ... || substring(path FROM ...)` on a subtree. -/
  | rewritePaths (groupId : Uuid) (newOwnPath : Utf16) (position : ℕ)
  | delete (groupId : Uuid)

namespace GroupOp

/-- Whether a statement went through is an answer. -/
@[reducible] def Answer : GroupOp → Type
  | hasEnabledHolder | insert .. | setDescription .. | setParent .. | rewritePaths .. | delete _ =>
    Bool
  | countUpTo _ => ℕ
  | capabilitiesOfGroupsAndAncestors _ => List Utf16
  | defaultsForTenant | descendantsOf _ => List Uuid
  | byId _ | byPath _ | lockGroupForAmend _ => Option GroupRecord
  | _ => Unit

def inserted (parent : Option GroupRecord) (name : Utf16) (description : Option Utf16)
    (createdAt : Utf16) : GroupRow where
  parentId := parent.map GroupRecord.id
  name := stored name
  description := description.map stored
  defaultForNewSubjects := false
  path := stored (pathBelow (parent.elim [] fun above ↦ units above.row.path) name)
  createdAt

/-- The parent that a row names is there. -/
def parentHeld (s : GroupRows) (parentId : Option Uuid) : Bool :=
  parentId.all fun id ↦ (s.group id).isSome

/-- No row has this path. -/
def pathFree (s : GroupRows) (path : Text) : Bool :=
  (s .heap).all fun id ↦ (s.group id).all fun row ↦ row.path != path

/-- The constraints on a row that is inserted: `groups_pkey`, `groups_name_has_no_slash`,
`groups_path_unique` and `groups_parent_fk`. -/
def insertable (s : GroupRows) (id : Uuid) (row : GroupRow) : Bool :=
  (s.group id).isNone && !row.name.isEmpty && !row.name.contains '/' && pathFree s row.path &&
    parentHeld s row.parentId

/-- A path that is rewritten; its positions are counted in characters. -/
def rewritten (newOwnPath : Utf16) (position : ℕ) (row : GroupRow) : GroupRow :=
  { row with path := stored newOwnPath ++ row.path.drop (position - 1) }

/-- `groups_path_unique`, once the paths are rewritten. -/
def rewritable (s : GroupRows) (groupId : Uuid) (newOwnPath : Utf16) (position : ℕ) : Bool :=
  let paths := (s .heap).dedup.filterMap fun id ↦ (s.group id).map fun row ↦
    if id ∈ subtree s groupId then (rewritten newOwnPath position row).path else row.path
  decide paths.Nodup

def recordOf (s : GroupRows) (id : Uuid) : Option GroupRecord :=
  (s.group id).map fun row ↦ ⟨id, row⟩

/-- What each statement may answer on the rows it sees. -/
def Answers : (op : GroupOp) → GroupRows → op.Answer → Prop
  | countUpTo limit, s, a => a = min limit (existing s (s .heap).dedup).length
  | defaultsForTenant, s, a => ∀ id, id ∈ a ↔ id ∈ defaults s
  | byId id, s, a | lockGroupForAmend id, s, a => a = recordOf s id
  | byPath path, s, a => a =
    ((s .heap).find? fun id ↦ (s.group id).any fun row ↦ row.path == stored path).bind (recordOf s)
  | descendantsOf startId, s, a => ∀ id, id ∈ a ↔ id ∈ GroupTree.descendantsOf s startId
  | insert id parent name description createdAt, s, a =>
    a = true → insertable s id (inserted parent name description createdAt) = true
  | setDescription id _, s, a => a = (s.group id).isSome
  | setParent _ newParentId, s, a => a = true → parentHeld s newParentId = true
  | rewritePaths groupId newOwnPath position, s, a =>
    a = true → rewritable s groupId newOwnPath position = true
  | delete groupId, s, a => a = (s.group groupId).isSome
  | _, _, _ => True

/-- Rows written, and so locked. -/
def writes (ids : List Uuid) (row : Uuid → Option GroupRow) : GroupWrites
  | .row id => if id ∈ ids then some (row id) else none
  | .shared id => if id ∈ ids then some () else none
  | _ => none

/-- One lock. -/
def lock (key : GroupKey) : GroupWrites
  | .creation => if key = .creation then some () else none
  | .administrators => if key = .administrators then some () else none
  | .defaultReach => if key = .defaultReach then some () else none
  | _ => none

/-- A row inserted, with the share of its parent. -/
def insertion (s : GroupRows) (id : Uuid) (row : GroupRow) : GroupWrites
  | .row id' => if id' = id then some (some row) else none
  | .shared id' => if row.parentId = some id' then some () else none
  | .heap => some (id :: s .heap)
  | _ => none

/-- What each statement writes, given the rows it sees. -/
def effect : GroupOp → GroupRows → GroupWrites
  | lockCreation, _ => lock .creation
  | lockAdministrators, _ => lock .administrators
  | lockDefaultReach, _ => lock .defaultReach
  | lockGroupForAmend id, s => writes (existing s [id]) s.group
  | lockRows ids, s => writes (existing s ids) s.group
  | insert id parent name description createdAt, s =>
    if insertable s id (inserted parent name description createdAt) then
      insertion s id (inserted parent name description createdAt)
    else fun _ ↦ none
  | setDescription groupId description, s =>
    writes (existing s [groupId]) fun id ↦ (s.group id).map fun row ↦
      { row with description := description.map stored }
  | setParent groupId newParentId, s =>
    if parentHeld s newParentId then
      writes (existing s [groupId]) fun id ↦ (s.group id).map fun row ↦
        { row with parentId := newParentId }
    else fun _ ↦ none
  | rewritePaths groupId newOwnPath position, s =>
    if rewritable s groupId newOwnPath position then
      writes (existing s (subtree s groupId)) fun id ↦
        (s.group id).map (rewritten newOwnPath position)
    else fun _ ↦ none
  | delete groupId, s =>
    if (s.group groupId).isSome then writes (existing s (subtree s groupId)) fun _ ↦ none
    else fun _ ↦ none
  | _, _ => fun _ ↦ none

end GroupOp

/-- The groups of a tenant. -/
abbrev groupDatabase : Database where
  Key := GroupKey
  Cell := GroupKey.Cell
  Op := GroupOp
  Answer := GroupOp.Answer
  Answers := GroupOp.Answers
  effect := GroupOp.effect

/-! ### Texts that are stored -/

theorem slash_not_surrogate : ¬isHigh SLASH ∧ ¬isLow SLASH := by decide

theorem stored_units (text : Text) : stored (units text) = text := by
  have hread := congrArg String.toList (usvString_unitsOf (String.ofList text))
  rw [usvString, unitsOf, String.toList_ofList, String.toList_ofList] at hread
  exact hread

/-- A path that is made of what was read is stored as the path below it. -/
theorem stored_pathBelow (above : Text) (name : Utf16) :
    stored (pathBelow (units above) name) = pathUnder above (stored name) := by
  obtain ⟨hhigh, hlow⟩ := slash_not_surrogate
  rw [stored, pathBelow, codePoints_append_unit hhigh hlow, List.map_append, List.map_cons]
  exact congrArg (· ++ _) (stored_units above)

/-- Each character is of the basic multilingual plane: one unit long. -/
def Basic (text : Text) : Bool := text.all fun c ↦ decide (c.toNat < 0x10000)

theorem length_units_of_basic {text : Text} (h : Basic text = true) :
    (units text).length = text.length := by
  induction text with
  | nil => rfl
  | cons c _ ih =>
    obtain ⟨hc, htext⟩ := Bool.and_eq_true_iff.mp h
    have hunits : (charUnits c).length = 1 := by
      rw [charUnits, if_pos (of_decide_eq_true hc), List.length_singleton]
    have htail := ih htext
    rw [units] at htail
    rw [units, List.flatMap_cons, List.length_append, hunits, htail, List.length_cons, Nat.add_comm]

theorem length_le_units (text : Text) : text.length ≤ (units text).length := by
  induction text with
  | nil => exact Nat.le_refl _
  | cons c _ ih =>
    have hunits : 1 ≤ (charUnits c).length := by
      unfold charUnits
      split <;> simp
    rw [units] at ih
    rw [units, List.flatMap_cons, List.length_append, List.length_cons]
    omega

theorem basic_of_length_units {text : Text} (h : (units text).length = text.length) :
    Basic text = true := by
  induction text with
  | nil => rfl
  | cons c text ih =>
    have hle := length_le_units text
    rw [units] at hle
    rw [units, List.flatMap_cons, List.length_append, List.length_cons] at h
    by_cases hc : c.toNat < 0x10000
    · have hunits : (charUnits c).length = 1 := by rw [charUnits, if_pos hc, List.length_singleton]
      have htext := ih (by rw [units]; omega)
      exact Bool.and_eq_true_iff.mpr ⟨decide_eq_true hc, htext⟩
    · have hunits : (charUnits c).length = 2 := by rw [charUnits, if_neg hc]; rfl
      omega

end Odudu.DomainAuthz.GroupTree
