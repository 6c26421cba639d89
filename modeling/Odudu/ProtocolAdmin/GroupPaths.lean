import Odudu.ProtocolAdmin.GroupRuns
import Odudu.ReadCommitted.Scenes

/-!
# Paths of groups

In every run in which a group is created under a parent that still has the path that was read of
it, a moved group has nothing below it or a path within the basic multilingual plane, and none is
moved under itself, the paths describe the tree (`paths_describe_tree`).  Each of the three
statements goes wrong where its condition fails.

A move takes the length of the old path in units, and the database cuts that many characters off
(`moved_path_loses_slash`).
-/

set_option autoImplicit false

namespace Odudu.ProtocolAdmin.Groups

open DomainAuthz.GroupTree ReadCommitted Texts Etag

variable {sha : Sha256}

variable (sha) in
/-- Ids are as they are printed where that tells, and paths are as they were read and as long to
the application as to the database where that tells. -/
def steady : Discipline (groups sha) where
  mayRun := fun call op s ↦ Spelled call op s ∧ Steady op s
  mayCommit := fun _ _ _ _ ↦ True

/-- In every run in which the conditions hold of what is written, the paths describe the tree
throughout. -/
theorem paths_describe_tree {rows : GroupRows} (hforest : Forest rows) (hrows : Described rows)
    {c : Config (groups sha)} (hc : Reaches (steady sha) (.start rows) c) : Described c.rows := by
  have hspelled : ∀ call op s, (steady sha).mayRun call op s → Spelled call op s :=
    fun _ _ _ h ↦ h.1
  have hsteady : True → ∀ call op s, (steady sha).mayRun call op s → Steady op s :=
    fun _ _ _ _ h ↦ h.2
  exact (tidy_of_reaches hspelled hsteady ⟨hforest, fun _ ↦ hrows⟩ hc).described trivial

/-! ### Where a condition fails -/

section Fails

open Relation

variable {s s' : GroupRows} {groupId : Uuid} {newOwnPath : Utf16} {row : GroupRow}

/-- An insert that leaves the paths right is under a parent that was read as it is. -/
theorem steady_of_inserted {newId : Uuid} {parent : Option GroupRecord} {name : Utf16}
    {description : Option Utf16} {createdAt : Utf16} (hfree : s.group newId = none)
    (hdescribed : Described (laid (GroupOp.insertion s newId
      (GroupOp.inserted parent name description createdAt)) s)) :
    Steady (.insert newId parent name description createdAt) s := by
  rintro above rfl top htop
  obtain ⟨path, hpath, heq⟩ := hdescribed newId _ (group_insertion.trans (if_pos rfl))
  obtain ⟨top', htop', rfl⟩ := Option.map_eq_some_iff.mp hpath
  obtain rfl := Option.some.inj ((extends_insertion hfree _ _ htop).symm.trans htop')
  change stored (pathBelow (units above.row.path) name) = pathUnder top.path (stored name) at heq
  rw [stored_pathBelow] at heq
  exact (List.append_cancel_right heq).symm

/-- A rewriting that leaves the paths right is of a group with nothing below it, or within the basic
multilingual plane. -/
theorem steady_of_rewritten (hamid : Amid s groupId (stored newOwnPath) row) (hforest : Forest s)
    (hdescribed : Described (laid (GroupOp.writes (existing s (subtree s groupId)) fun id ↦
      (s.group id).map (GroupOp.rewritten newOwnPath ((units row.path).length + 1))) s)) :
    Steady (.rewritePaths groupId newOwnPath ((units row.path).length + 1)) s := by
  have hposition : row.path.length + 1 ≤ (units row.path).length + 1 :=
    Nat.succ_le_succ (length_le_units row.path)
  rcases hamid.position_of_described hforest hposition hdescribed with hright | ⟨hleaf, -⟩
  · refine Or.inr fun own hown ↦ ?_
    obtain rfl := Option.some.inj (hamid.here.symm.trans hown)
    exact basic_of_length_units (Nat.succ.inj hright)
  · exact Or.inl hleaf

/-- A move after which the paths are made right is not under the group itself. -/
theorem spelled_of_moved {input : AmendGroupInput} {newParentId : Option Uuid} (hforest : Forest s)
    (hrow : s.group groupId = some row) (hsame : SameForest (moved s groupId newParentId) s')
    (hdescribed : Described s') : Spelled (.amend input) (.setParent groupId newParentId) s := by
  refine Or.inr fun above habove ↦ ?_
  subst habove
  have hedges : ParentOf s' = ParentOf (moved s groupId (some above)) :=
    funext fun _ ↦ funext fun _ ↦ propext hsame.parentOf_iff
  exact hforest.notMem_of_move hrow (hedges ▸ hdescribed.rooted)

end Fails

/-! ### Runs on given requests -/

instance (input : AmendGroupInput) : Decidable input.AsPrinted :=
  decidable_of_iff (uuid input.groupId = input.groupId ∧
      ∀ text ∈ input.parent.toOption.join.join, uuid text = text) <| by
    refine and_congr_right fun _ ↦ forall_congr' fun text ↦ imp_congr_left ?_
    rcases input.parent with _ | _ | _ | parentId <;> simp [Except.toOption]

instance (call : Call) (op : GroupOp) (s : GroupRows) : Decidable (Spelled call op s) :=
  match call, op with
  | .amend input, .setParent groupId newParentId =>
    inferInstanceAs (Decidable (input.AsPrinted ∨ ∀ above ∈ newParentId, above ∉ subtree s groupId))
  | .amend _, .lockCreation | .amend _, .lockAdministrators | .amend _, .lockDefaultReach
  | .amend _, .hasEnabledHolder | .amend _, .countUpTo _
  | .amend _, .capabilitiesOfGroupsAndAncestors _ | .amend _, .defaultsForTenant
  | .amend _, .byId _ | .amend _, .byPath _ | .amend _, .descendantsOf _
  | .amend _, .lockGroupForAmend _ | .amend _, .lockRows _ | .amend _, .keyShare _
  | .amend _, .insert .. | .amend _, .setDescription .. | .amend _, .rewritePaths ..
  | .amend _, .delete _ | .create _, _ | .delete _, _ =>
    instDecidableTrue

instance (op : GroupOp) (s : GroupRows) : Decidable (Steady op s) :=
  match op with
  | .insert _ parent _ _ _ =>
    inferInstanceAs (Decidable (∀ above ∈ parent, ∀ top ∈ s.group above.id,
      top.path = above.row.path))
  | .rewritePaths groupId _ _ =>
    inferInstanceAs (Decidable (children s groupId = [] ∨
      ∀ row ∈ s.group groupId, Basic row.path = true))
  | .lockCreation | .lockAdministrators | .lockDefaultReach | .hasEnabledHolder | .countUpTo _
  | .capabilitiesOfGroupsAndAncestors _ | .defaultsForTenant | .byId _ | .byPath _
  | .descendantsOf _ | .lockGroupForAmend _ | .lockRows _ | .keyShare _ | .setDescription ..
  | .setParent .. | .delete _ =>
    instDecidableTrue

instance : Discipline.Checked (steady sha) where
  mayRun := fun call op s ↦ inferInstanceAs (Decidable (Spelled call op s ∧ Steady op s))
  mayCommit := fun _ _ _ _ ↦ instDecidableTrue

def answerOf : (op : GroupOp) → GroupRows → op.Answer
  | .lockCreation, _ | .lockAdministrators, _ | .lockDefaultReach, _ | .lockRows _, _
  | .keyShare _, _ => ()
  | .hasEnabledHolder, _ => false
  | .countUpTo limit, s => min limit (existing s (s .heap).dedup).length
  | .capabilitiesOfGroupsAndAncestors _, _ => []
  | .defaultsForTenant, s => defaults s
  | .byId id, s | .lockGroupForAmend id, s => GroupOp.recordOf s id
  | .byPath path, s =>
    ((s .heap).find? fun id ↦ (s.group id).any fun row ↦ row.path == stored path).bind
      (GroupOp.recordOf s)
  | .descendantsOf startId, s => descendantsOf s startId
  | .insert id parent name description createdAt, s =>
    GroupOp.insertable s id (GroupOp.inserted parent name description createdAt)
  | .setDescription id _, s => (s.group id).isSome
  | .setParent _ newParentId, s => GroupOp.parentHeld s newParentId
  | .rewritePaths groupId newOwnPath position, s =>
    GroupOp.rewritable s groupId newOwnPath position
  | .delete groupId, s => (s.group groupId).isSome

def groupOracle : Oracle groupDatabase where
  answer := fun op s ↦ some (answerOf op s)
  reads := fun _ ↦ false
  right := by
    intro op s a h
    obtain rfl := Option.some.inj h
    cases op with
    | defaultsForTenant | descendantsOf => exact fun _ ↦ Iff.rfl
    | insert | setParent | rewritePaths => exact fun h ↦ h
    | countUpTo | byId | lockGroupForAmend | byPath | setDescription | delete => rfl
    | _ => trivial
  effect_of_reads := fun _ _ h ↦ nomatch h

/-- No group at all. -/
def noGroups : GroupRows
  | .row _ => none
  | .heap => []
  | .shared _ | .creation | .administrators | .defaultReach => ()

theorem forest_noGroups : Forest noGroups where
  parent := fun _ _ _ h ↦ nomatch h
  rooted := ⟨fun _ ↦ Acc.intro _ fun _ ⟨_, h, _⟩ ↦ nomatch h⟩
  scanned := fun _ _ h ↦ nomatch h

theorem described_noGroups : Described noGroups := fun _ _ h ↦ nomatch h

def firstId : Uuid := ofAscii "a0000000-0000-4000-8000-000000000000"

def insideId : Uuid := ofAscii "b0000000-0000-4000-8000-000000000000"

def besideId : Uuid := ofAscii "c0000000-0000-4000-8000-000000000000"

/-- A group of a name, one inside it, one beside it, and the first moved below that one. -/
def movedAfter (sha : Sha256) (name : Utf16) : List (Cue (groups sha)) :=
  [.begins (.create ⟨name, none, none, [], firstId, []⟩), .ends 0,
    .begins (.create ⟨ofAscii "a", none, some firstId, [], insideId, []⟩), .ends 1,
    .begins (.create ⟨ofAscii "b", none, none, [], besideId, []⟩), .ends 2,
    .begins (.amend ⟨firstId, [(ofAscii "parent_id", .string besideId)], none, []⟩), .ends 3]

/-- What is inside the first, and the first. -/
def outline {sha : Sha256} (m : Scene (groups sha)) : Option GroupRow × Option GroupRow :=
  (m.rows (.row insideId), m.rows (.row firstId))

/-- A move within the basic multilingual plane. -/
theorem paths_describe_tree_moved : ∃ c, Reaches (steady ⟨id, fun _ _ h ↦ h⟩) (.start noGroups) c ∧
    (GroupRows.group c.rows insideId).map GroupRow.path = some ['/', 'b', '/', 'é', '/', 'a'] ∧
    Described c.rows := by
  have hplay : ((Scene.playAll (steady ⟨id, fun _ _ h ↦ h⟩) groupOracle (.start noGroups)
      (movedAfter _ [0xE9])).map fun m ↦ (GroupRows.group m.rows insideId).map GroupRow.path) =
        some (some ['/', 'b', '/', 'é', '/', 'a']) := by
    decide +kernel
  obtain ⟨m, hplayed, hpath⟩ := Option.map_eq_some_iff.mp hplay
  have hreaches := Scene.reaches_of_start hplayed
  exact ⟨m.config, hreaches, hpath,
    paths_describe_tree forest_noGroups described_noGroups hreaches⟩

/-- The path of the group inside loses the slash: the path before the move is longer to the
application than to the database. -/
theorem moved_path_loses_slash : ¬∀ (sha : Sha256) (rows : GroupRows) (c : Config (groups sha)),
    Forest rows → Described rows → Reaches .free (.start rows) c → Described c.rows := by
  intro hclaim
  have hplay : ((Scene.playAll .free groupOracle (.start noGroups)
      (movedAfter ⟨id, fun _ _ h ↦ h⟩ [0xD83D, 0xDE00])).map outline) =
        some (some ⟨some firstId, ['a'], none, false, ['/', 'b', '/', '😀', 'a'], []⟩,
          some ⟨some besideId, ['😀'], none, false, ['/', 'b', '/', '😀'], []⟩) := by
    decide +kernel
  obtain ⟨m, hplayed, houtline⟩ := Option.map_eq_some_iff.mp hplay
  obtain ⟨hinside, hfirst⟩ := Prod.mk.inj houtline
  have hdescribed := hclaim _ _ _ forest_noGroups described_noGroups (Scene.reaches_of_start hplayed)
  obtain ⟨above, habove, hpath⟩ := hdescribed insideId _ hinside
  change (m.rows (.row firstId)).map GroupRow.path = some above at habove
  rw [hfirst] at habove
  obtain rfl := Option.some.inj habove
  exact absurd hpath (by decide)

end Odudu.ProtocolAdmin.Groups
