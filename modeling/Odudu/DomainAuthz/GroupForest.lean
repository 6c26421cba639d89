import Odudu.DomainAuthz.GroupTree

/-!
# Groups that stay a forest

The parents of groups lead to a root (`Forest`), and each path is that of the parent, a slash and
the name (`Described`).  Here is what the statements on groups make of rows of which that holds, and
that two transactions keep it together, one that adds groups below rows it shares and one that
writes rows that no other shares (`Forest.together`, `Described.together`).
-/

set_option autoImplicit false

namespace Odudu.DomainAuthz.GroupTree

open ReadCommitted Graphs Texts Relation

/-- One group is the parent of the other. -/
def ParentOf (s : GroupRows) (parent child : Uuid) : Prop :=
  ∃ row, s.group child = some row ∧ row.parentId = some parent

/-- Groups with their parents: each one leads up to a root, and is one that a scan meets. -/
structure Forest (s : GroupRows) : Prop where
  parent : ∀ id row above, s.group id = some row → row.parentId = some above →
    ∃ top, s.group above = some top
  rooted : WellFounded (ParentOf s)
  scanned : ∀ id row, s.group id = some row → id ∈ s .heap

/-- The path that a parent has: the empty one above a root. -/
def pathAbove (s : GroupRows) : Option Uuid → Option Text
  | none => some []
  | some id => (s.group id).map GroupRow.path

/-- The path of a row is that of its parent, a slash and its name. -/
def PathDescribed (s : GroupRows) (row : GroupRow) : Prop :=
  ∃ above, pathAbove s row.parentId = some above ∧ row.path = pathUnder above row.name

/-- Every path describes the tree. -/
def Described (s : GroupRows) : Prop := ∀ id row, s.group id = some row → PathDescribed s row

/-- Every row is there still, as it was. -/
def Extends (s s' : GroupRows) : Prop := ∀ id row, s.group id = some row → s'.group id = some row

/-- The rows, with what a transaction wrote over them. -/
abbrev laid (w : GroupWrites) (s : GroupRows) : GroupRows := @Writes.laidOver groupDatabase w s

section Reach

variable {s s' s'' : GroupRows} {id above groupId : Uuid} {row top : GroupRow}

theorem Forest.mem_children_iff (h : Forest s) : id ∈ children s above ↔ ParentOf s above id := by
  rw [children, List.mem_filter]
  constructor
  · rintro ⟨-, hany⟩
    cases hrow : s.group id with
    | none =>
      rw [hrow] at hany
      cases hany
    | some row =>
      rw [hrow] at hany
      exact ⟨row, hrow, by simpa using hany⟩
  · rintro ⟨row, hrow, hparent⟩
    refine ⟨h.scanned id row hrow, ?_⟩
    rw [hrow]
    simpa using hparent

theorem children_subset : children s id ⊆ s .heap := fun _ h ↦ List.mem_of_mem_filter h

theorem Forest.mem_closure_iff (h : Forest s) {rows seed : List Uuid} (hseed : seed ⊆ rows)
    (hheap : s .heap ⊆ rows) :
    id ∈ RecursiveQuery.result { rows, seed, step := children s } ↔
      ∃ first ∈ seed, ReflTransGen (ParentOf s) first id := by
  have hwithin : RecursiveQuery.Within { rows, seed, step := children s } :=
    ⟨fun a ha ↦ hseed ha, fun _ _ b hb ↦ hheap (children_subset hb)⟩
  have hleads : RecursiveQuery.Leads { rows, seed, step := children s } = ParentOf s :=
    funext fun a ↦ funext fun b ↦ propext h.mem_children_iff
  rw [hwithin.mem_result_iff, hleads]

theorem Forest.mem_descendantsOf_iff (h : Forest s) :
    id ∈ descendantsOf s groupId ↔ TransGen (ParentOf s) groupId id := by
  rw [descendantsOf, h.mem_closure_iff children_subset (List.Subset.refl _), TransGen.head'_iff]
  exact exists_congr fun first ↦ and_congr_left fun _ ↦ h.mem_children_iff

theorem Forest.mem_subtree_iff (h : Forest s) :
    id ∈ subtree s groupId ↔ ReflTransGen (ParentOf s) groupId id := by
  rw [subtree, h.mem_closure_iff (List.cons_subset_cons groupId (List.nil_subset _))
    (List.subset_cons_self groupId _)]
  simp

theorem Forest.not_cyclic (h : Forest s) : ¬TransGen (ParentOf s) id id :=
  fun hcycle ↦ h.rooted.transGen.irrefl.irrefl id hcycle

theorem Extends.pathAbove (h : Extends s s') {parentId : Option Uuid} {path : Text}
    (hpath : pathAbove s parentId = some path) : GroupTree.pathAbove s' parentId = some path := by
  cases parentId with
  | none => exact hpath
  | some id =>
    obtain ⟨row, hrow, rfl⟩ := Option.map_eq_some_iff.mp hpath
    rw [GroupTree.pathAbove, h id row hrow]
    rfl

theorem Extends.described (h : Extends s s') (hrow : PathDescribed s row) : PathDescribed s' row := by
  obtain ⟨path, hpath, hdescribed⟩ := hrow
  exact ⟨path, h.pathAbove hpath, hdescribed⟩

/-- What is above a group was above it before others were added. -/
theorem Forest.above_of_extends (h : Forest s) (hextends : Extends s s')
    (hrow : s.group id = some row) (hpath : ReflTransGen (ParentOf s') groupId id) :
    ReflTransGen (ParentOf s) groupId id := by
  induction hpath generalizing row with
  | refl => exact .refl
  | tail _ hlast ih =>
    obtain ⟨row', hrow', hparent⟩ := hlast
    obtain rfl := Option.some.inj ((hextends _ _ hrow).symm.trans hrow')
    obtain ⟨top, htop⟩ := h.parent _ _ _ hrow hparent
    exact (ih htop).tail ⟨row, hrow, hparent⟩

/-- The paths of a described tree grow downwards. -/
theorem length_le_of_above {top : GroupRow} (htop : s.group groupId = some top)
    (hdescribed : ∀ id row, id ≠ groupId → s.group id = some row → PathDescribed s row)
    (hpath : ReflTransGen (ParentOf s) groupId id) (hrow : s.group id = some row) :
    top.path.length ≤ row.path.length := by
  induction hpath generalizing row with
  | refl =>
    obtain rfl := Option.some.inj (htop.symm.trans hrow)
    exact Nat.le_refl _
  | @tail above id _ hlast ih =>
    by_cases hid : id = groupId
    · subst hid
      obtain rfl := Option.some.inj (htop.symm.trans hrow)
      exact Nat.le_refl _
    obtain ⟨row', hrow', hparent⟩ := hlast
    obtain rfl := Option.some.inj (hrow.symm.trans hrow')
    obtain ⟨path, hpath, heq⟩ := hdescribed id row hid hrow
    rw [hparent] at hpath
    obtain ⟨aboveRow, haboveRow, rfl⟩ := Option.map_eq_some_iff.mp hpath
    have hlonger := ih haboveRow
    rw [heq, pathUnder, List.length_append]
    omega

/-- The parents lead to a root where the paths are right. -/
theorem Described.rooted (h : Described s) : WellFounded (ParentOf s) := by
  have hshorter : ∀ parent child, ParentOf s parent child →
      ((s.group parent).elim 0 fun row ↦ row.path.length) <
        (s.group child).elim 0 fun row ↦ row.path.length := by
    rintro parent child ⟨row, hrow, hparent⟩
    obtain ⟨path, hpath, heq⟩ := h child row hrow
    rw [hparent] at hpath
    obtain ⟨top, htop, rfl⟩ := Option.map_eq_some_iff.mp hpath
    rw [hrow, htop, Option.elim_some, Option.elim_some, heq, pathUnder, List.length_append,
      List.length_cons]
    omega
  exact Subrelation.wf (fun {parent child} hedge ↦ hshorter parent child hedge)
    (measure fun id ↦ (s.group id).elim 0 fun row ↦ row.path.length).wf

end Reach

/-! ### Statements that change no parent -/

section Changes

open GroupOp

variable {s s' : GroupRows} {ids : List Uuid} {rows : Uuid → Option GroupRow} {id groupId : Uuid}
  {row : GroupRow} {change : GroupRow → GroupRow}

/-- The same groups with the same parents. -/
structure SameForest (s s' : GroupRows) : Prop where
  parent : ∀ id, (s'.group id).map GroupRow.parentId = (s.group id).map GroupRow.parentId
  heap : s' .heap = s .heap

theorem SameForest.exists_of (h : SameForest s s') (hrow : s'.group id = some row) :
    ∃ old, s.group id = some old ∧ old.parentId = row.parentId := by
  have hparent := h.parent id
  rw [hrow] at hparent
  obtain ⟨old, hold, hsame⟩ := Option.map_eq_some_iff.mp hparent.symm
  exact ⟨old, hold, hsame⟩

theorem SameForest.symm (h : SameForest s s') : SameForest s' s :=
  ⟨fun id ↦ (h.parent id).symm, h.heap.symm⟩

theorem SameForest.parentOf_iff (h : SameForest s s') {above : Uuid} :
    ParentOf s' above id ↔ ParentOf s above id := by
  constructor
  · rintro ⟨row, hrow, hparent⟩
    obtain ⟨old, hold, hsame⟩ := h.exists_of hrow
    exact ⟨old, hold, hsame.trans hparent⟩
  · rintro ⟨row, hrow, hparent⟩
    obtain ⟨new, hnew, hsame⟩ := h.symm.exists_of hrow
    exact ⟨new, hnew, hsame.trans hparent⟩

theorem Forest.of_same (h : Forest s) (hsame : SameForest s s') : Forest s' where
  parent := by
    intro id row above hrow hparent
    obtain ⟨old, hold, heq⟩ := hsame.exists_of hrow
    obtain ⟨top, htop⟩ := h.parent id old above hold (heq.trans hparent)
    obtain ⟨new, hnew, -⟩ := hsame.symm.exists_of htop
    exact ⟨new, hnew⟩
  rooted := by
    have hedges : ParentOf s' = ParentOf s :=
      funext fun above ↦ funext fun id ↦ propext hsame.parentOf_iff
    rw [hedges]
    exact h.rooted
  scanned := by
    intro id row hrow
    obtain ⟨old, hold, -⟩ := hsame.exists_of hrow
    rw [hsame.heap]
    exact h.scanned id old hold

theorem mem_existing_iff : id ∈ existing s ids ↔ id ∈ ids ∧ ∃ row, s.group id = some row := by
  rw [existing, List.mem_filter, Option.isSome_iff_exists]

theorem group_writes_of_mem (h : id ∈ ids) : (laid (writes ids rows) s).group id = rows id := by
  have hwrite : writes ids rows (.row id) = some (rows id) := if_pos h
  exact @Writes.laidOver_of_some groupDatabase _ _ _ hwrite s

theorem group_writes_of_notMem (h : id ∉ ids) :
    (laid (writes ids rows) s).group id = s.group id := by
  have hwrite : writes ids rows (.row id) = none := if_neg h
  exact @Writes.laidOver_of_none groupDatabase _ _ hwrite s

/-- Rows that are changed where they are. -/
theorem group_changed :
    (laid (writes (existing s ids) fun id ↦ (s.group id).map change) s).group id =
      if id ∈ ids then (s.group id).map change else s.group id := by
  by_cases hmem : id ∈ existing s ids
  · rw [group_writes_of_mem hmem, if_pos (mem_existing_iff.mp hmem).1]
  · rw [group_writes_of_notMem hmem]
    split
    case isTrue hid =>
      have hnone : s.group id = none := by
        cases hrow : s.group id with
        | none => rfl
        | some row => exact absurd (mem_existing_iff.mpr ⟨hid, row, hrow⟩) hmem
      rw [hnone]
      rfl
    case isFalse => rfl

theorem sameForest_changed (hchange : ∀ row, (change row).parentId = row.parentId) :
    SameForest s (laid (writes (existing s ids) fun id ↦ (s.group id).map change) s) where
  parent := by
    intro id
    rw [group_changed]
    split
    · rw [Option.map_map]
      exact congrArg (fun f ↦ (s.group id).map f) (funext hchange)
    · rfl
  heap := rfl

theorem exists_of_changed
    (hrow : (laid (writes (existing s ids) fun id ↦ (s.group id).map change) s).group id = some row) :
    ∃ old, s.group id = some old ∧ row = if id ∈ ids then change old else old := by
  rw [group_changed] at hrow
  split at hrow
  case isTrue hid =>
    obtain ⟨old, hold, rfl⟩ := Option.map_eq_some_iff.mp hrow
    exact ⟨old, hold, (if_pos hid).symm⟩
  case isFalse hid => exact ⟨row, hrow, (if_neg hid).symm⟩

theorem laid_writes_self : laid (writes ids s.group) s = s := by
  refine @Writes.laidOver_same groupDatabase _ _ fun k v hk ↦ ?_
  cases k with
  | row id =>
    change (if id ∈ ids then some (s.group id) else none) = some v at hk
    split at hk
    · exact Option.some.inj hk
    · cases hk
  | shared => rfl
  | _ => cases hk

theorem laid_lock (key : GroupKey) : laid (lock key) s = s := by
  refine @Writes.laidOver_same groupDatabase _ _ fun k v hk ↦ ?_
  cases k with
  | row | shared | heap => cases hk
  | _ => rfl

theorem pathAbove_changed {parentId : Option Uuid} (hchange : ∀ row, (change row).path = row.path) :
    pathAbove (laid (writes (existing s ids) fun id ↦ (s.group id).map change) s) parentId =
      pathAbove s parentId := by
  cases parentId with
  | none => rfl
  | some above =>
    rw [pathAbove, pathAbove, group_changed]
    split
    · rw [Option.map_map]
      exact congrArg (fun f ↦ (s.group above).map f) (funext hchange)
    · rfl

/-- The text beside the tree is changed. -/
theorem Described.of_changed (h : Described s)
    (hchange : ∀ row, (change row).parentId = row.parentId ∧ (change row).name = row.name ∧
      (change row).path = row.path) :
    Described (laid (writes (existing s ids) fun id ↦ (s.group id).map change) s) := by
  intro id row hrow
  obtain ⟨old, hold, rfl⟩ := exists_of_changed hrow
  obtain ⟨path, hpath, hdescribed⟩ := h id old hold
  refine ⟨path, ?_, ?_⟩
  · rw [pathAbove_changed fun row ↦ (hchange row).2.2]
    split
    · rw [(hchange old).1]
      exact hpath
    · exact hpath
  · split
    · rw [(hchange old).2.1, (hchange old).2.2]
      exact hdescribed
    · exact hdescribed

end Changes

/-! ### Groups deleted -/

section Deleted

open GroupOp

variable {s : GroupRows} {ids : List Uuid} {id groupId : Uuid} {row : GroupRow}

theorem group_deleted :
    (laid (writes (existing s ids) fun _ ↦ none) s).group id =
      if id ∈ ids then none else s.group id := by
  by_cases hmem : id ∈ existing s ids
  · rw [group_writes_of_mem hmem, if_pos (mem_existing_iff.mp hmem).1]
  · rw [group_writes_of_notMem hmem]
    split
    case isTrue hid =>
      cases hrow : s.group id with
      | none => rfl
      | some row => exact absurd (mem_existing_iff.mpr ⟨hid, row, hrow⟩) hmem
    case isFalse => rfl

theorem exists_of_deleted
    (hrow : (laid (writes (existing s ids) fun _ ↦ none) s).group id = some row) :
    id ∉ ids ∧ s.group id = some row := by
  rw [group_deleted] at hrow
  split at hrow
  case isTrue => cases hrow
  case isFalse hid => exact ⟨hid, hrow⟩

theorem Forest.parent_notMem_subtree (h : Forest s) {above : Uuid} (hid : id ∉ subtree s groupId)
    (hedge : ParentOf s above id) : above ∉ subtree s groupId := fun hmem ↦
  hid (h.mem_subtree_iff.mpr ((h.mem_subtree_iff.mp hmem).tail hedge))

theorem Forest.deleted (h : Forest s) :
    Forest (laid (writes (existing s (subtree s groupId)) fun _ ↦ none) s) where
  parent := by
    intro id row above hrow hparent
    obtain ⟨hid, hrow⟩ := exists_of_deleted hrow
    obtain ⟨top, htop⟩ := h.parent id row above hrow hparent
    have habove := h.parent_notMem_subtree hid ⟨row, hrow, hparent⟩
    exact ⟨top, group_deleted.trans ((if_neg habove).trans htop)⟩
  rooted := by
    refine Subrelation.wf (fun {above id} hedge ↦ ?_) h.rooted
    obtain ⟨row, hrow, hparent⟩ := hedge
    exact ⟨row, (exists_of_deleted hrow).2, hparent⟩
  scanned := fun id row hrow ↦ h.scanned id row (exists_of_deleted hrow).2

theorem Described.deleted (h : Described s) (hforest : Forest s) :
    Described (laid (writes (existing s (subtree s groupId)) fun _ ↦ none) s) := by
  intro id row hrow
  obtain ⟨hid, hrow⟩ := exists_of_deleted hrow
  obtain ⟨path, hpath, hdescribed⟩ := h id row hrow
  refine ⟨path, ?_, hdescribed⟩
  cases hparent : row.parentId with
  | none =>
    rw [hparent] at hpath
    exact hpath
  | some =>
    rw [hparent] at hpath
    have habove := hforest.parent_notMem_subtree hid ⟨row, hrow, hparent⟩
    rw [pathAbove, group_deleted, if_neg habove]
    exact hpath

end Deleted

/-! ### A group inserted -/

section Inserted

open GroupOp

variable {s : GroupRows} {id newId : Uuid} {row new : GroupRow} {parent : Option GroupRecord}
  {name : Utf16} {description : Option Utf16} {createdAt : Utf16}

theorem group_insertion :
    (laid (insertion s newId new) s).group id = if id = newId then some new else s.group id := by
  by_cases hid : id = newId
  · have hwrite : insertion s newId new (.row id) = some (some new) := if_pos hid
    rw [if_pos hid]
    exact @Writes.laidOver_of_some groupDatabase _ _ _ hwrite s
  · have hwrite : insertion s newId new (.row id) = none := if_neg hid
    rw [if_neg hid]
    exact @Writes.laidOver_of_none groupDatabase _ _ hwrite s

theorem exists_of_parentHeld {parentId : Option Uuid} {above : Uuid}
    (h : parentHeld s parentId = true) (hparent : parentId = some above) :
    ∃ top, s.group above = some top := by
  subst hparent
  exact Option.isSome_iff_exists.mp h

theorem free_of_insertable (h : insertable s newId new = true) :
    s.group newId = none ∧ parentHeld s new.parentId = true := by
  simp only [insertable, Bool.and_eq_true] at h
  exact ⟨Option.isNone_iff_eq_none.mp h.1.1.1.1, h.2⟩

theorem extends_insertion (hfree : s.group newId = none) :
    Extends s (laid (insertion s newId new) s) := by
  intro id row hrow
  rw [group_insertion, if_neg, hrow]
  rintro rfl
  rw [hfree] at hrow
  cases hrow

/-- A new group is a leaf. -/
theorem Forest.inserted (h : Forest s) (hnew : insertable s newId new = true) :
    Forest (laid (insertion s newId new) s) := by
  obtain ⟨hfree, hheld⟩ := free_of_insertable hnew
  have hold : ∀ {id row}, (laid (insertion s newId new) s).group id = some row → id ≠ newId →
      s.group id = some row := fun {id row} hrow hid ↦ by
    rw [group_insertion, if_neg hid] at hrow
    exact hrow
  have hparent : ∀ id row above, (laid (insertion s newId new) s).group id = some row →
      row.parentId = some above → ∃ top, s.group above = some top := by
    intro id row above hrow habove
    by_cases hid : id = newId
    · rw [group_insertion, if_pos hid] at hrow
      obtain rfl := Option.some.inj hrow
      exact exists_of_parentHeld hheld habove
    · exact h.parent id row above (hold hrow hid) habove
  have hother : ∀ {above top}, s.group above = some top → above ≠ newId := by
    rintro above top htop rfl
    rw [hfree] at htop
    cases htop
  have hacc : ∀ id, id ≠ newId → Acc (ParentOf (laid (insertion s newId new) s)) id := by
    intro id
    induction id using h.rooted.induction with
    | h id ih =>
      intro hid
      refine Acc.intro _ fun above hedge ↦ ?_
      obtain ⟨row, hrow, habove⟩ := hedge
      obtain ⟨top, htop⟩ := hparent id row above hrow habove
      exact ih above ⟨row, hold hrow hid, habove⟩ (hother htop)
  refine ⟨fun id row above hrow habove ↦ ?_, ⟨fun id ↦ ?_⟩, fun id row hrow ↦ ?_⟩
  · obtain ⟨top, htop⟩ := hparent id row above hrow habove
    exact ⟨top, extends_insertion hfree _ _ htop⟩
  · by_cases hid : id = newId
    · refine Acc.intro _ fun above hedge ↦ ?_
      obtain ⟨row, hrow, habove⟩ := hedge
      obtain ⟨top, htop⟩ := hparent id row above hrow habove
      exact hacc above (hother htop)
    · exact hacc id hid
  · by_cases hid : id = newId
    · exact List.mem_cons.mpr (Or.inl hid)
    · exact List.mem_cons.mpr (Or.inr (h.scanned id row (hold hrow hid)))

/-- The path of a new group is that of its parent, where it was read. -/
theorem Described.inserted (h : Described s) (hfree : s.group newId = none)
    (hnew : PathDescribed s new) : Described (laid (insertion s newId new) s) := by
  intro id row hrow
  refine (extends_insertion hfree).described ?_
  rw [group_insertion] at hrow
  split at hrow
  case isTrue =>
    obtain rfl := Option.some.inj hrow
    exact hnew
  case isFalse => exact h id row hrow

/-- The parent has the path that was read of it. -/
theorem pathDescribed_inserted {name : Utf16} {description : Option Utf16} {createdAt : Utf16}
    {parent : Option GroupRecord}
    (hread : ∀ above, parent = some above → ∃ top, s.group above.id = some top ∧
      top.path = above.row.path) :
    PathDescribed s (GroupOp.inserted parent name description createdAt) := by
  cases parent with
  | none => exact ⟨[], rfl, stored_pathBelow [] name⟩
  | some above =>
    obtain ⟨top, htop, hpath⟩ := hread above rfl
    refine ⟨above.row.path, ?_, stored_pathBelow _ name⟩
    change (s.group above.id).map GroupRow.path = some above.row.path
    rw [htop, Option.map_some, hpath]

end Inserted

/-! ### A group moved -/

section Moved

open GroupOp

variable {s : GroupRows} {id groupId : Uuid} {row : GroupRow} {newParentId : Option Uuid}

/-- The rows once the group has its new parent. -/
abbrev moved (s : GroupRows) (groupId : Uuid) (newParentId : Option Uuid) : GroupRows :=
  laid (writes (existing s [groupId]) fun id ↦ (s.group id).map fun row ↦
    { row with parentId := newParentId }) s

theorem group_moved_of_ne (hid : id ≠ groupId) :
    (moved s groupId newParentId).group id = s.group id := by
  rw [group_changed, if_neg]
  simpa using hid

theorem group_moved_self (hrow : s.group groupId = some row) :
    (moved s groupId newParentId).group groupId = some { row with parentId := newParentId } := by
  rw [group_changed, if_pos (List.mem_singleton_self groupId), hrow]
  rfl

variable {above : Uuid}

theorem parentOf_moved_of_ne (hid : id ≠ groupId) :
    ParentOf (moved s groupId newParentId) above id ↔ ParentOf s above id := by
  simp only [ParentOf, group_moved_of_ne hid]

theorem parent_of_moved (hedge : ParentOf (moved s groupId newParentId) above groupId) :
    newParentId = some above := by
  obtain ⟨row, hrow, habove⟩ := hedge
  obtain ⟨old, -, rfl⟩ := exists_of_changed hrow
  rw [if_pos (List.mem_singleton_self groupId)] at habove
  exact habove

/-- A group that is moved under one that is not below it. -/
theorem Forest.of_move (h : Forest s)
    (hheld : ∀ above, newParentId = some above → ∃ top, s.group above = some top)
    (hout : ∀ above, newParentId = some above → above ∉ subtree s groupId) :
    Forest (moved s groupId newParentId) := by
  -- First what is not below the group, then the group, then what is below it.
  have hacc_out : ∀ id, id ∉ subtree s groupId → Acc (ParentOf (moved s groupId newParentId)) id := by
    intro id
    induction id using h.rooted.induction with
    | h id ih =>
      intro hid
      have hne : id ≠ groupId := by
        rintro rfl
        exact hid (h.mem_subtree_iff.mpr .refl)
      refine Acc.intro _ fun above hedge ↦ ?_
      have hold := (parentOf_moved_of_ne hne).mp hedge
      exact ih above hold (h.parent_notMem_subtree hid hold)
  have hacc_self : Acc (ParentOf (moved s groupId newParentId)) groupId :=
    Acc.intro _ fun above hedge ↦ hacc_out above (hout above (parent_of_moved hedge))
  have hthere : ∀ {above top}, s.group above = some top →
      ∃ top, (moved s groupId newParentId).group above = some top := by
    intro above top htop
    by_cases habove : above = groupId
    · subst habove
      exact ⟨_, group_moved_self htop⟩
    · exact ⟨top, (group_moved_of_ne habove).trans htop⟩
  refine ⟨fun id row above hrow habove ↦ ?_, ⟨fun id ↦ ?_⟩, fun id row hrow ↦ ?_⟩
  · by_cases hid : id = groupId
    · subst hid
      obtain ⟨top, htop⟩ := hheld above (parent_of_moved ⟨row, hrow, habove⟩)
      exact hthere htop
    · obtain ⟨top, htop⟩ := h.parent id row above ((group_moved_of_ne hid).symm.trans hrow) habove
      exact hthere htop
  · induction id using h.rooted.induction with
    | h id ih =>
      by_cases hid : id = groupId
      · exact hid ▸ hacc_self
      · exact Acc.intro _ fun above hedge ↦ ih above ((parentOf_moved_of_ne hid).mp hedge)
  · obtain ⟨old, hold, -⟩ := exists_of_changed hrow
    exact h.scanned id old hold

/-- A group that is moved under one below it leads to no root. -/
theorem Forest.notMem_of_move (h : Forest s) (hrow : s.group groupId = some row)
    (hrooted : WellFounded (ParentOf (moved s groupId (some above)))) :
    above ∉ subtree s groupId := by
  intro hmem
  have hkept : ∀ id, ReflTransGen (ParentOf s) groupId id →
      ReflTransGen (ParentOf (moved s groupId (some above))) groupId id := by
    intro id hpath
    induction hpath with
    | refl => exact .refl
    | @tail _ id hpath hlast ih =>
      refine ih.tail ((parentOf_moved_of_ne ?_).mpr hlast)
      rintro rfl
      exact h.not_cyclic (.tail' hpath hlast)
  have hedge : ParentOf (moved s groupId (some above)) above groupId :=
    ⟨_, group_moved_self hrow, rfl⟩
  exact hrooted.transGen.irrefl.irrefl groupId
    (.tail' (hkept above (h.mem_subtree_iff.mp hmem)) hedge)

theorem pathAbove_moved {parentId : Option Uuid} :
    pathAbove (moved s groupId newParentId) parentId = pathAbove s parentId :=
  pathAbove_changed fun _ ↦ rfl

/-- Paths that are right but for those of a group, which has a new parent, and of what is below it;
and the path that the group is to have. -/
structure Amid (s : GroupRows) (groupId : Uuid) (newOwnPath : Text) (row : GroupRow) : Prop where
  others : ∀ id row, id ≠ groupId → s.group id = some row → PathDescribed s row
  here : s.group groupId = some row
  toBe : PathDescribed s { row with path := newOwnPath }

theorem Described.amid (h : Described s) (hrow : s.group groupId = some row) {above : Text}
    (habove : pathAbove s newParentId = some above) :
    Amid (moved s groupId newParentId) groupId (pathUnder above row.name)
      { row with parentId := newParentId } where
  others := by
    intro id row hid hrow
    rw [group_moved_of_ne hid] at hrow
    obtain ⟨path, hpath, hdescribed⟩ := h id row hrow
    exact ⟨path, pathAbove_moved.trans hpath, hdescribed⟩
  here := group_moved_self hrow
  toBe := ⟨above, pathAbove_moved.trans habove, rfl⟩

/-- Positions that are right: those after the path of the group, or any where there is nothing below
it. -/
def RightPosition (s : GroupRows) (groupId : Uuid) (path : Text) (position : ℕ) : Prop :=
  position = path.length + 1 ∨ children s groupId = [] ∧ path.length + 1 ≤ position

variable {newOwnPath : Utf16}

/-- The paths of a subtree rewritten describe the tree. -/
theorem Amid.rewritten {position : ℕ}
    (h : Amid s groupId (stored newOwnPath) row) (hforest : Forest s)
    (hposition : RightPosition s groupId row.path position) :
    Described (laid (writes (existing s (subtree s groupId)) fun id ↦
      (s.group id).map (GroupOp.rewritten newOwnPath position)) s) := by
  have houtside : ∀ {id old}, id ∉ subtree s groupId ∨ id = groupId → s.group id = some old →
      pathAbove (laid (writes (existing s (subtree s groupId)) fun id ↦
        (s.group id).map (GroupOp.rewritten newOwnPath position)) s) old.parentId =
          pathAbove s old.parentId := by
    intro id old hid hold
    cases hparent : old.parentId with
    | none => rfl
    | some above =>
      have hnotMem : above ∉ subtree s groupId := by
        rcases hid with hid | rfl
        · exact hforest.parent_notMem_subtree hid ⟨old, hold, hparent⟩
        · intro hmem
          have hreached := hforest.mem_subtree_iff.mp hmem
          exact hforest.not_cyclic (.tail' hreached ⟨old, hold, hparent⟩)
      rw [pathAbove, pathAbove, group_changed, if_neg hnotMem]
  intro id new hnew
  obtain ⟨old, hold, rfl⟩ := exists_of_changed hnew
  by_cases hmem : id ∈ subtree s groupId
  · rw [if_pos hmem]
    by_cases hid : id = groupId
    · subst hid
      obtain rfl := Option.some.inj (h.here.symm.trans hold)
      obtain ⟨above, habove, heq⟩ := h.toBe
      refine ⟨above, (houtside (Or.inr rfl) hold).trans habove, ?_⟩
      have hdrop : row.path.drop (position - 1) = [] := by
        refine List.drop_eq_nil_of_le ?_
        rcases hposition with hposition | ⟨-, hposition⟩ <;> omega
      change stored newOwnPath ++ row.path.drop (position - 1) = pathUnder above row.name
      rw [hdrop, List.append_nil]
      exact heq
    · -- Below the group, a path goes on from its parent's, which is rewritten alike.
      obtain ⟨path, hpath, heq⟩ := h.others id old hid hold
      obtain rfl | ⟨above, habove, hedge⟩ :=
        ReflTransGen.cases_tail (hforest.mem_subtree_iff.mp hmem)
      · exact absurd rfl hid
      have hparent : old.parentId = some above := by
        obtain ⟨old', hold', hparent⟩ := hedge
        obtain rfl := Option.some.inj (hold.symm.trans hold')
        exact hparent
      rw [hparent] at hpath
      obtain ⟨top, htop, rfl⟩ := Option.map_eq_some_iff.mp hpath
      have hposition : position = row.path.length + 1 := by
        refine hposition.resolve_right fun hleaf ↦ ?_
        obtain ⟨first, hfirst, -⟩ := TransGen.head'_iff.mp (TransGen.tail' habove hedge)
        have hchild := hforest.mem_children_iff.mpr hfirst
        rw [hleaf.1] at hchild
        cases hchild
      have hlength := length_le_of_above h.here h.others habove htop
      refine ⟨(GroupOp.rewritten newOwnPath position top).path, ?_, ?_⟩
      · change pathAbove _ old.parentId = _
        rw [hparent, pathAbove, group_changed, if_pos (hforest.mem_subtree_iff.mpr habove), htop]
        rfl
      · change stored newOwnPath ++ old.path.drop (position - 1) =
          pathUnder (stored newOwnPath ++ top.path.drop (position - 1)) old.name
        rw [heq, pathUnder, pathUnder, List.drop_append_of_le_length (by omega), List.append_assoc]
  · rw [if_neg hmem]
    have hid : id ≠ groupId := by
      rintro rfl
      exact hmem (hforest.mem_subtree_iff.mpr .refl)
    obtain ⟨path, hpath, heq⟩ := h.others id old hid hold
    exact ⟨path, (houtside (Or.inl hmem) hold).trans hpath, heq⟩

/-- No other position is right. -/
theorem Amid.position_of_described {position : ℕ}
    (h : Amid s groupId (stored newOwnPath) row) (hforest : Forest s)
    (hposition : row.path.length + 1 ≤ position)
    (hdescribed : Described (laid (writes (existing s (subtree s groupId)) fun id ↦
      (s.group id).map (GroupOp.rewritten newOwnPath position)) s)) :
    RightPosition s groupId row.path position := by
  by_cases hleaf : children s groupId = []
  · exact Or.inr ⟨hleaf, hposition⟩
  obtain ⟨child, hchild⟩ := List.exists_mem_of_ne_nil _ hleaf
  obtain ⟨old, hold, hparent⟩ := hforest.mem_children_iff.mp hchild
  have hne : child ≠ groupId := by
    rintro rfl
    exact hforest.not_cyclic (.single ⟨old, hold, hparent⟩)
  obtain ⟨path, hpath, heq⟩ := h.others child old hne hold
  rw [hparent, pathAbove, h.here] at hpath
  obtain rfl := Option.some.inj hpath
  have hmem : child ∈ subtree s groupId := hforest.mem_subtree_iff.mpr (.single ⟨old, hold, hparent⟩)
  have hself : groupId ∈ subtree s groupId := hforest.mem_subtree_iff.mpr .refl
  obtain ⟨path', hpath', heq'⟩ := hdescribed child (GroupOp.rewritten newOwnPath position old) (by
    rw [group_changed, if_pos hmem, hold]
    rfl)
  change pathAbove _ old.parentId = some path' at hpath'
  rw [hparent, pathAbove, group_changed, if_pos hself, h.here] at hpath'
  obtain rfl := Option.some.inj hpath'
  change stored newOwnPath ++ old.path.drop (position - 1) =
    pathUnder (stored newOwnPath ++ row.path.drop (position - 1)) old.name at heq'
  -- A path that begins anywhere else is too short.
  have hlength := congrArg List.length heq'
  rw [heq, pathUnder, pathUnder] at hlength
  simp only [List.length_append, List.length_drop, List.length_cons] at hlength
  left
  omega

end Moved

/-! ### Two transactions -/

/-- Groups are added, each below one whose key is shared, and those there were stay. -/
structure Adds (s : GroupRows) (w : GroupWrites) : Prop where
  keeps : Extends s (laid w s)
  shares : ∀ id row above, s.group id = none → (laid w s).group id = some row →
    row.parentId = some above → w (.shared above) ≠ none
  heap : s .heap ⊆ laid w s .heap

/-- Rows are written whose keys are not shared, and none is added. -/
structure Excludes (w : GroupWrites) : Prop where
  shares : ∀ id, w (.row id) ≠ none → w (.shared id) ≠ none
  heap : w .heap = none

section Excluding

variable {s : GroupRows} {ids : List Uuid} {rows : Uuid → Option GroupRow} {w later : GroupWrites}

theorem excludes_nothing : Excludes fun _ ↦ none := ⟨fun _ h ↦ absurd rfl h, rfl⟩

theorem excludes_writes : Excludes (GroupOp.writes ids rows) where
  shares := by
    intro id hwritten
    change (if id ∈ ids then some (rows id) else none) ≠ none at hwritten
    change (if id ∈ ids then some () else none) ≠ none
    split
    · exact Option.some_ne_none _
    · rename_i hid
      exact absurd (if_neg hid) hwritten
  heap := rfl

theorem excludes_lock (key : GroupKey) : Excludes (GroupOp.lock key) :=
  ⟨fun _ h ↦ absurd rfl h, rfl⟩

theorem excludes_ite {c : Prop} [Decidable c] (h : Excludes w) :
    Excludes (if c then w else fun _ ↦ none) := by
  split
  · exact h
  · exact excludes_nothing

theorem Excludes.andThen (h : Excludes w) (hlater : Excludes later) :
    Excludes (@Writes.andThen groupDatabase w later) where
  shares := by
    intro id hwritten hnone
    obtain ⟨hw, hlaterNone⟩ := (@Writes.andThen_eq_none groupDatabase w later (.shared id)).mp hnone
    refine hwritten ((@Writes.andThen_eq_none groupDatabase w later (.row id)).mpr ⟨?_, ?_⟩)
    · by_contra hrow
      exact h.shares id hrow hw
    · by_contra hrow
      exact hlater.shares id hrow hlaterNone
  heap := (@Writes.andThen_eq_none groupDatabase w later .heap).mpr ⟨h.heap, hlater.heap⟩

theorem adds_of_same (h : laid w s = s) : Adds s w where
  keeps := fun _ _ hrow ↦ by rw [h]; exact hrow
  shares := by
    intro id row above hfree hrow
    rw [h, hfree] at hrow
    cases hrow
  heap := by rw [h]; exact List.Subset.refl _

/-- A group inserted by a transaction that has written nothing else. -/
theorem adds_insertion {newId : Uuid} {new : GroupRow} (h : laid w s = s)
    (hfree : s.group newId = none) :
    Adds s (@Writes.andThen groupDatabase w (GroupOp.insertion s newId new)) := by
  have hover : laid (@Writes.andThen groupDatabase w (GroupOp.insertion s newId new)) s =
      laid (GroupOp.insertion s newId new) s := by
    change @Writes.laidOver groupDatabase _ s = _
    rw [Writes.andThen_laidOver]
    exact congrArg (laid (GroupOp.insertion s newId new)) h
  refine ⟨?_, fun id row above hnone hrow hparent ↦ ?_, ?_⟩
  · rw [hover]
    exact extends_insertion hfree
  · rw [hover, group_insertion] at hrow
    split at hrow
    case isFalse =>
      rw [hnone] at hrow
      cases hrow
    case isTrue =>
      obtain rfl := Option.some.inj hrow
      have hshared : GroupOp.insertion s newId new (.shared above) = some () := if_pos hparent
      rw [@Writes.andThen_of_some groupDatabase _ _ _ _ hshared]
      exact Option.some_ne_none _
  · rw [hover]
    exact List.subset_cons_self newId _

end Excluding

section Together

variable {s : GroupRows} {w w' : GroupWrites} {id above : Uuid} {row : GroupRow}

/-- A group is of the rows that one transaction sees, or one that the other added. -/
theorem Adds.cases (hadds : Adds s w)
    (hrow : (laid w' (laid w s)).group id = some row) :
    (laid w' s).group id = some row ∨ s.group id = none ∧ (laid w s).group id = some row := by
  cases hw' : w' (.row id) with
  | some cell =>
    have hover : ∀ s, (laid w' s).group id = cell :=
      @Writes.laidOver_of_some groupDatabase _ _ _ hw'
    exact Or.inl ((hover s).trans ((hover _).symm.trans hrow))
  | none =>
    have hover : ∀ s : GroupRows, (laid w' s).group id = s.group id :=
      @Writes.laidOver_of_none groupDatabase _ _ hw'
    rw [hover] at hrow
    cases hold : s.group id with
    | none => exact Or.inr ⟨rfl, hrow⟩
    | some old =>
      obtain rfl := Option.some.inj ((hadds.keeps id old hold).symm.trans hrow)
      exact Or.inl ((hover s).trans hold)

/-- The rows that one transaction sees are there when the other has committed. -/
theorem Adds.extends_laid (hadds : Adds s w) : Extends (laid w' s) (laid w' (laid w s)) := by
  intro id row hrow
  cases hw' : w' (.row id) with
  | some cell =>
    have hover : ∀ s, (laid w' s).group id = cell :=
      @Writes.laidOver_of_some groupDatabase _ _ _ hw'
    exact (hover _).trans ((hover s).symm.trans hrow)
  | none =>
    have hover : ∀ s : GroupRows, (laid w' s).group id = s.group id :=
      @Writes.laidOver_of_none groupDatabase _ _ hw'
    rw [hover] at hrow ⊢
    exact hadds.keeps id row hrow

/-- The parent of a group that was added is as it was. -/
theorem Adds.parent_kept (hadds : Adds s w) (hexcludes : Excludes w')
    (hapart : @Writes.Apart groupDatabase w' w) (hfree : s.group id = none)
    (hrow : (laid w s).group id = some row) (hparent : row.parentId = some above) :
    (laid w' (laid w s)).group above = (laid w s).group above := by
  have hshared := hadds.shares id row above hfree hrow hparent
  have hnone : w' (.row above) = none := by
    by_contra hwritten
    exact hexcludes.shares above hwritten ((hapart (.shared above)).resolve_right hshared)
  exact @Writes.laidOver_of_none groupDatabase _ _ hnone _

/-- Two transactions that leave a forest each leave one together. -/
theorem Forest.together (hw : Forest (laid w s)) (hw' : Forest (laid w' s)) (hadds : Adds s w)
    (hexcludes : Excludes w') (hapart : @Writes.Apart groupDatabase w' w) :
    Forest (laid w' (laid w s)) := by
  have hparent : ∀ id row above, (laid w' (laid w s)).group id = some row →
      row.parentId = some above → ∃ top, (laid w' (laid w s)).group above = some top := by
    intro id row above hrow habove
    rcases hadds.cases hrow with hold | ⟨hfree, hnew⟩
    · obtain ⟨top, htop⟩ := hw'.parent id row above hold habove
      exact ⟨top, hadds.extends_laid above top htop⟩
    · obtain ⟨top, htop⟩ := hw.parent id row above hnew habove
      exact ⟨top, (hadds.parent_kept hexcludes hapart hfree hnew habove).trans htop⟩
  -- What one transaction sees is below nothing that the other added.
  have hacc : ∀ id row, (laid w' s).group id = some row →
      Acc (ParentOf (laid w' (laid w s))) id := by
    intro id
    induction id using hw'.rooted.induction with
    | h id ih =>
      intro row hold
      refine Acc.intro _ fun above hedge ↦ ?_
      obtain ⟨row', hrow, habove⟩ := hedge
      obtain rfl := Option.some.inj ((hadds.extends_laid id row hold).symm.trans hrow)
      obtain ⟨top, htop⟩ := hw'.parent id row above hold habove
      exact ih above ⟨row, hold, habove⟩ top htop
  refine ⟨hparent, ⟨fun id ↦ ?_⟩, fun id row hrow ↦ ?_⟩
  · induction id using hw.rooted.induction with
    | h id ih =>
      refine Acc.intro _ fun above hedge ↦ ?_
      obtain ⟨row, hrow, habove⟩ := hedge
      rcases hadds.cases hrow with hold | ⟨-, hnew⟩
      · obtain ⟨top, htop⟩ := hw'.parent id row above hold habove
        exact hacc above top htop
      · exact ih above ⟨row, hnew, habove⟩
  · have hheap : laid w' (laid w s) .heap = laid w s .heap :=
      @Writes.laidOver_of_none groupDatabase _ _ hexcludes.heap _
    have hheap' : laid w' s .heap = s .heap :=
      @Writes.laidOver_of_none groupDatabase _ _ hexcludes.heap _
    rw [hheap]
    rcases hadds.cases hrow with hold | ⟨-, hnew⟩
    · have hscanned := hw'.scanned id row hold
      rw [hheap'] at hscanned
      exact hadds.heap hscanned
    · exact hw.scanned id row hnew

/-- The path of a row that either has described describes the tree of both. -/
theorem PathDescribed.together (hw : Described (laid w s)) (hadds : Adds s w)
    (hexcludes : Excludes w') (hapart : @Writes.Apart groupDatabase w' w)
    (hrow : (laid w' (laid w s)).group id = some row)
    (hw' : (laid w' s).group id = some row → PathDescribed (laid w' s) row) :
    PathDescribed (laid w' (laid w s)) row := by
  rcases hadds.cases hrow with hold | ⟨hfree, hnew⟩
  · exact hadds.extends_laid.described (hw' hold)
  · obtain ⟨path, hpath, hdescribed⟩ := hw id row hnew
    refine ⟨path, ?_, hdescribed⟩
    cases hparent : row.parentId with
    | none =>
      rw [hparent] at hpath
      exact hpath
    | some =>
      rw [hparent] at hpath
      rw [pathAbove, hadds.parent_kept hexcludes hapart hfree hnew hparent]
      exact hpath

theorem Described.together (hw : Described (laid w s)) (hw' : Described (laid w' s))
    (hadds : Adds s w) (hexcludes : Excludes w') (hapart : @Writes.Apart groupDatabase w' w) :
    Described (laid w' (laid w s)) :=
  fun id row hrow ↦ PathDescribed.together hw hadds hexcludes hapart hrow (hw' id row)

theorem Amid.together {groupId : Uuid} {newOwnPath : Text} {own : GroupRow}
    (hw' : Amid (laid w' s) groupId newOwnPath own) (hw : Described (laid w s))
    (hadds : Adds s w) (hexcludes : Excludes w') (hapart : @Writes.Apart groupDatabase w' w) :
    Amid (laid w' (laid w s)) groupId newOwnPath own where
  others := fun id row hid hrow ↦
    PathDescribed.together hw hadds hexcludes hapart hrow (hw'.others id row hid)
  here := hadds.extends_laid _ _ hw'.here
  toBe := hadds.extends_laid.described hw'.toBe

/-- Groups are added still where others have written theirs. -/
theorem Adds.after (hadds : Adds s w) (hexcludes : Excludes w')
    (hapart : @Writes.Apart groupDatabase w' w) : Adds (laid w' s) w := by
  have hcomm : laid w (laid w' s) = laid w' (laid w s) :=
    @Writes.Apart.laidOver_comm groupDatabase w w' hapart s
  refine ⟨?_, fun id row above hfree hrow hparent ↦ ?_, ?_⟩
  · rw [hcomm]
    exact hadds.extends_laid
  · rw [hcomm] at hrow
    rcases hadds.cases hrow with hold | ⟨hfree', hnew⟩
    · rw [hold] at hfree
      cases hfree
    · exact hadds.shares id row above hfree' hnew hparent
  · have hheap : ∀ s : GroupRows, laid w' s .heap = s .heap :=
      @Writes.laidOver_of_none groupDatabase _ _ hexcludes.heap
    rw [hcomm, hheap, hheap]
    exact hadds.heap

end Together

end Odudu.DomainAuthz.GroupTree
