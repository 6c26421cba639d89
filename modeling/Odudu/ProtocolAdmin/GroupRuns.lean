import Odudu.DomainAuthz.GroupForest
import Odudu.ProtocolAdmin.Groups
import Odudu.ReadCommitted.RelyGuarantee

/-!
# Runs on the groups of a tenant

A move or a delete holds the lock of the administrators to its end, so only creates come between
its statements, and creates come one at a time.  What one request is to keep, it keeps together
with the other (`contract`).
-/

set_option autoImplicit false

namespace Odudu.ProtocolAdmin.Groups

open DomainAuthz.GroupTree ReadCommitted ReadCommitted.Contract Texts Etag
open Relation

/-! ### Conditions -/

/-- The ids of the request are written as they are printed. -/
def AmendGroupInput.AsPrinted (input : AmendGroupInput) : Prop :=
  uuid input.groupId = input.groupId ∧
    ∀ text, input.parent = .ok (some (some text)) → uuid text = text

/-- A group is not moved under itself or under one below it by an id that is written in another
case. -/
def Spelled : Call → GroupOp → GroupRows → Prop
  | .amend input, .setParent groupId newParentId, s =>
    input.AsPrinted ∨ ∀ above, newParentId = some above → above ∉ subtree s groupId
  | _, _, _ => True

/-- A group is created under one that still has the path that was read of it, and one that is moved
has nothing below it, or a path within the basic multilingual plane. -/
def Steady : GroupOp → GroupRows → Prop
  | .insert _ parent _ _ _, s => ∀ above, parent = some above → ∀ top, s.group above.id = some top →
      top.path = above.row.path
  | .rewritePaths groupId _ _, s => children s groupId = [] ∨
      ∀ row, s.group groupId = some row → Basic row.path = true
  | _, _ => True

/-! ### What is kept -/

/-- A forest, and where paths are asked about, paths that describe it. -/
structure Tidy (paths : Prop) (s : GroupRows) : Prop where
  forest : Forest s
  described : paths → Described s

theorem Tidy.together {paths : Prop} {s : GroupRows} {w w' : GroupWrites}
    (hw : Tidy paths (laid w s)) (hw' : Tidy paths (laid w' s)) (hadds : Adds s w)
    (hexcludes : Excludes w') (hapart : @Writes.Apart groupDatabase w' w) :
    Tidy paths (laid w' (laid w s)) where
  forest := hw.forest.together hw'.forest hadds hexcludes hapart
  described := fun h ↦ (hw.described h).together (hw'.described h) hadds hexcludes hapart

variable {sha : Sha256} {paths : Prop}

variable (sha paths) in
/-- A create adds, one at a time, and the others write what no other holds, one at a time. -/
def contract : Contract (groups sha) where
  Inv := Tidy paths
  Guar := fun _ _ s w _ ↦ Tidy paths (laid w s) ∧
    (w .creation ≠ none ∧ Adds s w ∨ w .administrators ≠ none ∧ Excludes w)
  Thrown := fun _ _ _ _ ↦ True
  kept := fun _ hguar ↦ hguar.1

/-- What is kept of the rows in view while others add groups. -/
def Kept (paths : Prop) (V : GroupRows → Prop) : Prop :=
  ∀ {s : GroupRows} {w w' : GroupWrites}, V (laid w' s) → Tidy paths (laid w s) → Adds s w →
    Excludes w' → @Writes.Apart groupDatabase w' w → V (laid w' (laid w s))

/-- What goes on holding of a forest as groups are added to it. -/
def Lasting (F : GroupRows → Prop) : Prop := ∀ v v', Forest v → Extends v v' → F v → F v'

theorem kept_tidy : Kept paths (Tidy paths) := fun hw' hw hadds hexcludes hapart ↦
  hw.together hw' hadds hexcludes hapart

theorem Lasting.kept {F : GroupRows → Prop} (hF : Lasting F) :
    Kept paths fun v ↦ Tidy paths v ∧ F v :=
  fun hw' hw hadds hexcludes hapart ↦ ⟨hw.together hw'.1 hadds hexcludes hapart,
    hF _ _ hw'.1.forest hadds.extends_laid hw'.2⟩

theorem Lasting.and {F F' : GroupRows → Prop} (hF : Lasting F) (hF' : Lasting F') :
    Lasting fun v ↦ F v ∧ F' v :=
  fun v v' hv hextends h ↦ ⟨hF v v' hv hextends h.1, hF' v v' hv hextends h.2⟩

/-- What else a request knows of its writes and of the rows. -/
abbrev Frame : Type := GroupWrites → GroupRows → Prop

def noFrame : Frame := fun _ _ ↦ True

/-- What is known of a request that is not a create: it holds the lock of the administrators,
excludes others from what it writes, and sees rows of which something holds. -/
structure Moving (V : GroupRows → Prop) (G : Frame) (w : GroupWrites)
    (s : GroupRows) : Prop where
  held : w .administrators ≠ none
  excludes : Excludes w
  sees : V (laid w s)
  frame : G w s

/-- What is kept by others, and by the request as it goes on. -/
structure Framed (sha : Sha256) (paths : Prop) (G : Frame) : Prop where
  stable : (contract sha paths).Stable G
  grows : ∀ w later s, G w s → G (@Writes.andThen groupDatabase w later) s

theorem framed_noFrame : Framed sha paths noFrame where
  stable := fun _ _ _ _ ↦ trivial
  grows := fun _ _ _ _ ↦ trivial

theorem Framed.and {G G' : Frame} (hG : Framed sha paths G) (hG' : Framed sha paths G') :
    Framed sha paths fun w s ↦ G w s ∧ G' w s where
  stable := Stable.and hG.stable hG'.stable
  grows := fun w later s h ↦ ⟨hG.grows w later s h.1, hG'.grows w later s h.2⟩

theorem framed_back {P : Frame} (hP : (contract sha paths).Stable P) (saved : GroupWrites) :
    Framed sha paths (@Back (groups sha) P saved) where
  stable := Stable.back hP saved
  grows := fun _ later _ h ↦ ⟨h.1.andThen later, h.2⟩

theorem stable_moving {V : GroupRows → Prop} {G : Frame} (hV : Kept paths V)
    (hG : Framed sha paths G) : (contract sha paths).Stable (Moving V G) := by
  intro t call s w w' outcome hinv hguar hapart h
  have hframe := hG.stable hinv hguar hapart h.frame
  rcases hguar.2 with ⟨-, hadds⟩ | ⟨hheld, -⟩
  · exact ⟨h.held, h.excludes, hV h.sees hguar.1 hadds h.excludes hapart.symm, hframe⟩
  · -- Two requests that hold one lock are not apart.
    exact absurd (hapart .administrators) (not_or.mpr ⟨hheld, h.held⟩)

/-- What is known of a create: it holds the lock of creations, and adds. -/
structure Creating (paths : Prop) (w : GroupWrites) (s : GroupRows) : Prop where
  held : w .creation ≠ none
  adds : Adds s w
  tidy : Tidy paths (laid w s)

theorem stable_creating : (contract sha paths).Stable (Creating paths) := by
  intro t call s w w' outcome hinv hguar hapart h
  rcases hguar.2 with ⟨hheld, -⟩ | ⟨-, hexcludes⟩
  · exact absurd (hapart .creation) (not_or.mpr ⟨hheld, h.held⟩)
  · refine ⟨h.held, h.adds.after hexcludes hapart, ?_⟩
    have htogether := h.tidy.together hguar.1 h.adds hexcludes hapart
    have hcomm : laid w (laid w' s) = laid w' (laid w s) :=
      @Writes.Apart.laidOver_comm groupDatabase w w' hapart s
    rw [hcomm]
    exact htogether

/-! ### Statements of a move or a delete -/

/-- A statement that others see nothing of. -/
def Still (op : GroupOp) : Prop := ∀ v, Excludes (op.effect v) ∧ laid (op.effect v) v = v

theorem still_read {op : GroupOp} (h : op.effect = fun _ _ ↦ none) : Still op := fun v ↦ by
  rw [h]
  exact ⟨excludes_nothing, rfl⟩

theorem still_lockGroup (groupId : Uuid) : Still (.lockGroupForAmend groupId) :=
  fun _ ↦ ⟨excludes_writes, laid_writes_self⟩

theorem still_lockRows (ids : List Uuid) : Still (.lockRows ids) :=
  fun _ ↦ ⟨excludes_writes, laid_writes_self⟩

theorem still_lockDefaultReach : Still .lockDefaultReach :=
  fun _ ↦ ⟨excludes_lock _, laid_lock _⟩

section Rules

variable {d : Discipline (groups sha)} {t : ℕ} {call : Call} {V : GroupRows → Prop}
  {G : Frame} {α β : Type}

variable (sha paths d t call) in
abbrev Proves (P : Known (groups sha)) (p : Tx α) (Q : α → Known (groups sha)) : Prop :=
  (contract sha paths).Stands d t call P p Q

theorem Moving.mono {V' : GroupRows → Prop} {G' : Frame} {w : GroupWrites}
    {s : GroupRows} (h : Moving V G w s) (hV : V (laid w s) → V' (laid w s))
    (hG : G w s → G' w s) : Moving V' G' w s :=
  ⟨h.held, h.excludes, hV h.sees, hG h.frame⟩

theorem Moving.sees_of {V' : GroupRows → Prop} {w : GroupWrites} {s : GroupRows}
    (h : Moving V G w s) (hV : V (laid w s) → V' (laid w s)) : Moving V' G w s :=
  h.mono hV fun h ↦ h

variable {op : GroupOp}

theorem proves_op {V' : op.Answer → GroupRows → Prop} (hV : Kept paths V)
    (hG : Framed sha paths G) (hop : ∀ v, Excludes (op.effect v))
    (h : ∀ a v, V v → d.mayRun call op v → op.Answers v a → V' a (laid (op.effect v) v)) :
    Proves sha paths d t call (Moving V G) (run op) fun a ↦ Moving (V' a) G := by
  refine stands_ask_may (stable_moving hV hG) fun w s a _ hknown hmay ha ↦ ⟨?_, ?_, ?_, ?_⟩
  · intro hnone
    exact hknown.held (Writes.andThen_eq_none.mp hnone).1
  · exact hknown.excludes.andThen (hop _)
  · have hover := @Writes.andThen_laidOver groupDatabase w (op.effect (laid w s)) s
    change V' a (@Writes.laidOver groupDatabase _ s)
    rw [hover]
    exact h a _ hknown.sees hmay ha
  · exact hG.grows w _ s hknown.frame

theorem proves_read {V' : op.Answer → GroupRows → Prop} (hV : Kept paths V)
    (hG : Framed sha paths G) (hop : Still op) (h : ∀ a v, V v → op.Answers v a → V' a v) :
    Proves sha paths d t call (Moving V G) (run op) fun a ↦ Moving (V' a) G :=
  proves_op hV hG (fun v ↦ (hop v).1) fun a v hv _ ha ↦ (hop v).2.symm ▸ h a v hv ha

theorem proves_still (hV : Kept paths V) (hG : Framed sha paths G) (hop : Still op) :
    Proves sha paths d t call (Moving V G) (run op) fun _ ↦ Moving V G :=
  proves_read hV hG hop fun _ _ hv _ ↦ hv

theorem proves_still_bind {f : op.Answer → Tx β} {Q : β → Known (groups sha)}
    (hV : Kept paths V) (hG : Framed sha paths G) (hop : Still op)
    (hf : ∀ a, Proves sha paths d t call (Moving V G) (f a) Q) :
    Proves sha paths d t call (Moving V G) (run op >>= f) Q :=
  stands_bind (proves_still hV hG hop) hf

theorem proves_same {a : α} {P : Known (groups sha)} :
    Proves sha paths d t call P (pure a) fun _ ↦ P :=
  stands_pure fun _ _ _ h ↦ h

theorem proves_pure {a : α} {Q : α → Known (groups sha)}
    (h : ∀ w s, Moving V G w s → Q a w s) :
    Proves sha paths d t call (Moving V G) (pure a) Q :=
  stands_pure fun w s _ hknown ↦ h w s hknown

theorem proves_throw {e : Failure} {P : Known (groups sha)} {Q : α → Known (groups sha)} :
    Proves sha paths d t call P (.throw e) Q :=
  stands_throw fun _ ↦ trivial

end Rules

/-! ### The last administrator -/

section Guard

variable {d : Discipline (groups sha)} {t : ℕ} {call : Call}

/-- Nothing is written but the lock of the administrators. -/
theorem proves_lockAdministrators :
    Proves sha paths d t call (fun w _ ↦ w = Writes.nothing) (run .lockAdministrators)
      fun _ ↦ Moving (Tidy paths) noFrame := by
  refine stands_ask (stable_of_writes fun w ↦ w = Writes.nothing) fun w s _ hinv hw _ ↦ ?_
  subst hw
  rw [Writes.nothing_andThen]
  refine ⟨Option.some_ne_none _, excludes_lock _, ?_, trivial⟩
  exact (laid_lock .administrators).symm ▸ hinv

/-- A write that keeps what it sees is guarded, and keeps it. -/
theorem proves_guardLastAdministrator {write : Tx Outcome}
    (hwrite : ∀ G : Frame, Framed sha paths G →
      Proves sha paths d t call (Moving (Tidy paths) G) write fun _ ↦ Moving (Tidy paths) G) :
    Proves sha paths d t call (fun w _ ↦ w = Writes.nothing) (guardLastAdministrator write)
      fun _ ↦ Moving (Tidy paths) noFrame := by
  refine stands_bind proves_lockAdministrators fun _ ↦ ?_
  refine proves_still_bind kept_tidy framed_noFrame (still_read rfl) fun held ↦ ?_
  refine stands_ite (fun _ ↦ stands_savepoint_back fun saved ↦ ?_) fun _ ↦ hwrite _ framed_noFrame
  have hback : Framed sha paths (@Back (groups sha) (Moving (Tidy paths) noFrame) saved) :=
    framed_back (stable_moving kept_tidy framed_noFrame) saved
  refine Stands.mono (stands_bind (hwrite _ hback) fun outcome ↦ ?_)
    (fun w s _ h ↦ h.1.mono (fun h ↦ h) fun _ ↦ h.2) fun _ _ _ _ h ↦ h
  refine proves_still_bind kept_tidy hback (still_read rfl) fun still ↦ ?_
  refine stands_ite (fun _ ↦ ?_) fun _ ↦ ?_
  · exact proves_pure fun w s h ↦ h.mono (fun h ↦ h) fun _ ↦ trivial
  · refine Stands.mono (stands_rollbackTo_back ?_) (fun w s _ h ↦ h.frame) fun _ _ _ _ h ↦ h
    exact proves_pure fun w s h ↦ h

end Guard

/-! ### Deleting -/

section Delete

variable {d : Discipline (groups sha)} {t : ℕ} {call : Call} {G : Frame}

theorem Tidy.deleted {s : GroupRows} {groupId : Uuid} (h : Tidy paths s) :
    Tidy paths (laid ((GroupOp.delete groupId).effect s) s) := by
  change Tidy paths (laid (if (s.group groupId).isSome then _ else _) s)
  split
  · exact ⟨h.forest.deleted, fun hpaths ↦ (h.described hpaths).deleted h.forest⟩
  · exact h

theorem proves_deleteGroupUnguarded (input : DeleteGroupInput) (hG : Framed sha paths G) :
    Proves sha paths d t call (Moving (Tidy paths) G) (deleteGroupUnguarded input)
      fun _ ↦ Moving (Tidy paths) G := by
  refine proves_still_bind kept_tidy hG (still_lockGroup _) fun locked ↦ ?_
  refine stands_ite (fun _ ↦ proves_same) fun _ ↦ ?_
  refine stands_bind (M := fun _ ↦ Moving (Tidy paths) G) ?_ fun held ↦ ?_
  · refine proves_still_bind kept_tidy hG (still_read rfl) fun below ↦ ?_
    exact proves_still kept_tidy hG (still_read rfl)
  refine stands_ite (fun _ ↦ proves_same) fun _ ↦ ?_
  refine stands_bind (M := fun _ ↦ Moving (Tidy paths) G) ?_ fun deleted ↦ ?_
  · exact proves_op kept_tidy hG (fun _ ↦ excludes_ite excludes_writes) fun _ v h _ _ ↦ h.deleted
  · exact stands_ite (fun _ ↦ proves_same) fun _ ↦ proves_same

end Delete

/-! ### Checks on an amendment -/

section Checks

variable {d : Discipline (groups sha)} {t : ℕ} {call : Call} {G : Frame} {V : GroupRows → Prop}

/-- The parent that is asked for is there. -/
def ParentThere (parentId : Amended) (v : GroupRows) : Prop :=
  ∀ text, parentId = some (some text) → ∃ top, v.group (uuid text) = some top

theorem lasting_parentThere (parentId : Amended) : Lasting (ParentThere parentId) := by
  intro v v' _ hextends h text htext
  obtain ⟨top, htop⟩ := h text htext
  exact ⟨top, hextends _ _ htop⟩

theorem exists_of_record {v : GroupRows} {id : Uuid} {group : GroupRecord}
    (h : some group = GroupOp.recordOf v id) : group.id = id ∧ v.group id = some group.row := by
  obtain ⟨row, hrow, rfl⟩ := Option.map_eq_some_iff.mp h.symm
  exact ⟨rfl, hrow⟩

theorem proves_unknownParent (hG : Framed sha paths G) (parentId : Amended) :
    Proves sha paths d t call (Moving (Tidy paths) G) (unknownParent parentId) fun unknown ↦
      Moving (fun v ↦ Tidy paths v ∧ (unknown = false → ParentThere parentId v)) G := by
  match parentId with
  | none | some none =>
    exact proves_pure fun _ _ h ↦ h.sees_of (fun h ↦ ⟨h, fun _ _ htext ↦ nomatch htext⟩)
  | some (some text) =>
    refine stands_ite (fun _ ↦ ?_) fun _ ↦ ?_
    · exact proves_pure fun _ _ h ↦ h.sees_of (fun h ↦ ⟨h, fun hfalse ↦ nomatch hfalse⟩)
    refine stands_bind (proves_read kept_tidy hG (still_read rfl)
      fun found v hv hfound ↦ ?_) fun found ↦ proves_pure fun _ _ h ↦ h
    refine ⟨hv, ?_⟩
    rintro hsome _ ⟨rfl⟩
    obtain ⟨group, rfl⟩ := Option.ne_none_iff_exists'.mp fun hnone ↦
      Bool.noConfusion ((congrArg Option.isNone hnone).symm.trans hsome)
    exact ⟨group.row, (exists_of_record hfound).2⟩

theorem proves_nameTaken (hV : Kept paths V) (hG : Framed sha paths G) (input : AmendGroupInput)
    (locked : GroupRecord) (parentId : Amended) :
    Proves sha paths d t call (Moving V G) (nameTaken input locked parentId)
      fun _ ↦ Moving V G := by
  cases parentId with
  | none => exact proves_same
  | some parentId =>
    refine stands_ite (fun _ ↦ proves_same) fun _ ↦ ?_
    refine stands_bind (M := fun _ ↦ Moving V G) ?_ fun above ↦ ?_
    · cases parentId with
      | none => exact proves_same
      | some => exact proves_still hV hG (still_read rfl)
    · exact proves_still_bind hV hG (still_read rfl) fun taken ↦ proves_same

theorem proves_capabilitiesOf (hV : Kept paths V) (hG : Framed sha paths G)
    (groupId : Option Uuid) :
    Proves sha paths d t call (Moving V G) (capabilitiesOf groupId) fun _ ↦ Moving V G := by
  cases groupId with
  | none => exact proves_same
  | some => exact proves_still hV hG (still_read rfl)

theorem proves_moveOverreach (hV : Kept paths V) (hG : Framed sha paths G)
    (input : AmendGroupInput) (locked : GroupRecord) (parentId : Amended) :
    Proves sha paths d t call (Moving V G) (moveOverreach input locked parentId)
      fun _ ↦ Moving V G := by
  cases parentId with
  | none => exact proves_same
  | some =>
    refine stands_bind (proves_capabilitiesOf hV hG _) fun gained ↦ ?_
    refine stands_bind (M := fun _ ↦ Moving V G) ?_ fun lost ↦ ?_
    · exact stands_ite (fun _ ↦ proves_same) fun _ ↦ proves_capabilitiesOf hV hG _
    · exact proves_same

theorem proves_holdsDefaultGroup (hV : Kept paths V) (hG : Framed sha paths G) (groupId : Utf16) :
    Proves sha paths d t call (Moving V G) (holdsDefaultGroup groupId) fun _ ↦ Moving V G := by
  refine proves_still_bind hV hG (still_read rfl) fun defaults ↦ ?_
  refine stands_ite (fun _ ↦ proves_same) fun _ ↦ ?_
  exact proves_still_bind hV hG (still_read rfl) fun below ↦ proves_same

theorem proves_defaultOverreach (hV : Kept paths V) (hG : Framed sha paths G)
    (input : AmendGroupInput) (parentId : Amended) :
    Proves sha paths d t call (Moving V G) (defaultOverreach input parentId)
      fun _ ↦ Moving V G := by
  match parentId with
  | none | some none => exact proves_same
  | some (some parentId) =>
    refine proves_still_bind hV hG (still_read rfl) fun below ↦ ?_
    have hlocked : Proves sha paths d t call (Moving V G) (lockSubtree below) fun _ ↦ Moving V G :=
      stands_ite (fun _ ↦ proves_still hV hG (still_lockRows _)) fun _ ↦ proves_same
    refine stands_bind hlocked fun _ ↦ ?_
    refine proves_still_bind hV hG (still_read rfl) fun _ ↦ ?_
    refine proves_still_bind hV hG still_lockDefaultReach fun _ ↦ ?_
    refine stands_bind (proves_holdsDefaultGroup hV hG _) fun holds ↦ ?_
    exact stands_ite (fun _ ↦ proves_still hV hG (still_read rfl)) fun _ ↦
      proves_same

end Checks

/-! ### Moving -/

section Move

variable {d : Discipline (groups sha)} {t : ℕ} {call : Call} {G : Frame} {F : GroupRows → Prop}

variable (paths) in
/-- Tidy rows of which something holds. -/
abbrev Sees (F : GroupRows → Prop) (v : GroupRows) : Prop := Tidy paths v ∧ F v

theorem lasting_group (id : Uuid) (row : GroupRow) : Lasting fun v ↦ v.group id = some row :=
  fun _ _ _ hextends h ↦ hextends id row h

theorem lasting_pathAbove (parentId : Option Uuid) (path : Utf16) :
    Lasting fun v ↦ ∃ above, pathAbove v parentId = some above ∧ units above = path :=
  fun _ _ _ hextends ⟨above, habove, hpath⟩ ↦ ⟨above, hextends.pathAbove habove, hpath⟩

/-- The new parent is there, and where both ids are as they are printed, it is neither the group nor
below it. -/
def Outside (groupId : Utf16) (newParentId : Option Utf16) (v : GroupRows) : Prop :=
  ∀ text, newParentId = some text → (∃ top, v.group (uuid text) = some top) ∧
    (uuid groupId = groupId → uuid text = text →
      ¬ReflTransGen (ParentOf v) (uuid groupId) (uuid text))

theorem lasting_outside (groupId : Utf16) (newParentId : Option Utf16) :
    Lasting (Outside groupId newParentId) := by
  intro v v' hv hextends h text htext
  obtain ⟨⟨top, htop⟩, hout⟩ := h text htext
  exact ⟨⟨top, hextends _ _ htop⟩, fun hgroup hparent hreached ↦
    hout hgroup hparent (hv.above_of_extends hextends htop hreached)⟩

theorem proves_requireById (hF : Lasting F) (hG : Framed sha paths G) (groupId : Utf16) :
    Proves sha paths d t call (Moving (Sees paths F) G) (requireById groupId) fun group ↦
      Moving (Sees paths fun v ↦ F v ∧ v.group (uuid groupId) = some group.row) G := by
  refine stands_bind (proves_read hF.kept hG (still_read rfl) fun found v hv hfound ↦
    (⟨hv, hfound⟩ : Sees paths F v ∧ found = GroupOp.recordOf v (uuid groupId))) fun found ↦ ?_
  cases found with
  | none => exact proves_throw
  | some =>
    exact proves_pure fun _ _ h ↦ h.mono
      (fun ⟨⟨hv, hF⟩, hfound⟩ ↦ ⟨hv, hF, (exists_of_record hfound).2⟩) fun h ↦ h

theorem proves_parentOf (hF : Lasting F) (hG : Framed sha paths G) (parentId : Option Utf16) :
    Proves sha paths d t call (Moving (Sees paths F) G) (parentOf parentId) fun parent ↦
      Moving (Sees paths fun v ↦ F v ∧ ∃ above, pathAbove v (parentId.map uuid) = some above ∧
        units above = pathOf parent) G := by
  cases parentId with
  | none => exact proves_pure fun _ _ h ↦ h.sees_of (fun h ↦ ⟨h.1, h.2, [], rfl, rfl⟩)
  | some parentId =>
    refine stands_bind (proves_requireById hF hG parentId) fun parent ↦ ?_
    exact proves_pure fun _ _ h ↦ h.sees_of (fun ⟨hv, hF, hrow⟩ ↦
      ⟨hv, hF, parent.row.path, congrArg (Option.map GroupRow.path) hrow, rfl⟩)

theorem proves_reachesItself (hF : Lasting F) (hG : Framed sha paths G) (groupId : Utf16)
    {newParentId : Option Utf16} (hthere : ∀ v, F v → ParentThere (some newParentId) v) :
    Proves sha paths d t call (Moving (Sees paths F) G) (reachesItself groupId newParentId)
      fun cyclic ↦ Moving (Sees paths fun v ↦ F v ∧
        (cyclic = false → Outside groupId newParentId v)) G := by
  cases newParentId with
  | none =>
    exact proves_pure fun _ _ h ↦ h.mono
      (fun h ↦ ⟨h.1, h.2, fun _ _ htext ↦ nomatch htext⟩) fun h ↦ h
  | some newParentId =>
    refine stands_bind (proves_read hF.kept hG (still_read rfl)
      fun reachable v hv hreachable ↦ ?_) fun reachable ↦ proves_pure fun _ _ h ↦ h
    refine ⟨hv.1, hv.2, ?_⟩
    rintro hacyclic _ ⟨rfl⟩
    refine ⟨hthere v hv.2 newParentId rfl, fun hgroup hparent hreached ↦ ?_⟩
    obtain ⟨hne, hnotMem⟩ := Bool.or_eq_false_iff.mp hacyclic
    rw [hgroup, hparent] at hreached
    rcases ReflTransGen.cases_head_iff.mp hreached with heq | hbelow
    · rw [heq] at hne
      simp at hne
    · have hmem := (hreachable newParentId).mpr (hgroup.symm ▸
        hv.1.forest.mem_descendantsOf_iff.mpr (TransGen.head'_iff.mpr hbelow))
      rw [List.contains_iff_mem.mpr hmem] at hnotMem
      cases hnotMem

/-- What the group is between its new parent and its new path. -/
def Mid (paths : Prop) (groupId : Uuid) (newOwnPath : Utf16) (row : GroupRow) (v : GroupRows) :
    Prop :=
  Forest v ∧ (paths → Amid v groupId (stored newOwnPath) row)

theorem kept_mid {groupId : Uuid} {newOwnPath : Utf16} {row : GroupRow} :
    Kept paths (Mid paths groupId newOwnPath row) := fun hw' hw hadds hexcludes hapart ↦
  ⟨hw.forest.together hw'.1 hadds hexcludes hapart, fun h ↦
    (hw'.2 h).together (hw.described h) hadds hexcludes hapart⟩

section Writes

variable (hspelled : ∀ call op s, d.mayRun call op s → Spelled call op s)
  (hsteady : paths → ∀ call op s, d.mayRun call op s → Steady op s)

include hspelled in
theorem proves_setParent {input : AmendGroupInput} (hcall : call = .amend input)
    {newParentId : Option Utf16} (hparent : input.parent = .ok (some newParentId))
    (hG : Framed sha paths G) {group : GroupRecord} {parent : Option GroupRecord} :
    Proves sha paths d t call
      (Moving (Sees paths fun v ↦ ((ParentThere (some newParentId) v ∧
        v.group (uuid input.groupId) = some group.row) ∧ Outside input.groupId newParentId v) ∧
        ∃ above, pathAbove v (newParentId.map uuid) = some above ∧ units above = pathOf parent) G)
      (run (.setParent (uuid input.groupId) (newParentId.map uuid)))
      fun written ↦ Moving (fun v ↦ written = true → Mid paths (uuid input.groupId)
        (pathBelow (pathOf parent) (units group.row.name))
        { group.row with parentId := newParentId.map uuid } v) G := by
  subst hcall
  have hlasting := (((lasting_parentThere (some newParentId)).and
    (lasting_group (uuid input.groupId) group.row)).and
    (lasting_outside input.groupId newParentId)).and
    (lasting_pathAbove (newParentId.map uuid) (pathOf parent))
  refine proves_op hlasting.kept hG (fun _ ↦ excludes_ite excludes_writes)
    fun written v ⟨hv, ⟨⟨_, hrow⟩, houtside⟩, above, habove, hpath⟩ hmay ha hwritten ↦ ?_
  change Mid paths _ _ _ (laid (if GroupOp.parentHeld v _ = true then _ else _) v)
  rw [if_pos (ha hwritten)]
  have hout : ∀ above, newParentId.map uuid = some above →
      above ∉ subtree v (uuid input.groupId) := by
    intro above hmap
    rcases hspelled _ _ _ hmay with ⟨hgroup, hprinted⟩ | hout
    · obtain ⟨text, rfl, rfl⟩ := Option.map_eq_some_iff.mp hmap
      exact fun hmem ↦ (houtside text rfl).2 hgroup (hprinted text hparent)
        (hv.forest.mem_subtree_iff.mp hmem)
    · exact hout above hmap
  refine ⟨hv.forest.of_move (fun above hmap ↦ ?_) hout, fun hpaths ↦ ?_⟩
  · exact exists_of_parentHeld (ha hwritten) hmap
  · have hamid := (hv.described hpaths).amid hrow habove
    rw [← hpath, stored_pathBelow, stored_units]
    exact hamid

include hsteady in
theorem proves_rewritePaths (hG : Framed sha paths G) {groupId : Uuid} {newOwnPath : Utf16}
    (row : GroupRow) {path : Text} (hpath : row.path = path) :
    Proves sha paths d t call (Moving (Mid paths groupId newOwnPath row) G)
      (run (.rewritePaths groupId newOwnPath ((units path).length + 1)))
      fun rewritten ↦ Moving (fun v ↦ rewritten = true → Tidy paths v) G := by
  subst hpath
  refine proves_op kept_mid hG (fun _ ↦ excludes_ite excludes_writes)
    fun rewritten v hv hmay ha hrewritten ↦ ?_
  change Tidy paths (laid (if GroupOp.rewritable v _ _ _ = true then _ else _) v)
  rw [if_pos (ha hrewritten)]
  refine ⟨hv.1.of_same (sameForest_changed fun _ ↦ rfl), fun hpaths ↦ ?_⟩
  have hamid := hv.2 hpaths
  refine hamid.rewritten hv.1 ?_
  rcases hsteady hpaths _ _ _ hmay with hleaf | hbasic
  · exact Or.inr ⟨hleaf, Nat.succ_le_succ (length_le_units row.path)⟩
  · exact Or.inl (congrArg (· + 1) (length_units_of_basic (hbasic row hamid.here)))

include hspelled hsteady in
theorem proves_reparent {input : AmendGroupInput} (hcall : call = .amend input)
    {newParentId : Option Utf16} (hparent : input.parent = .ok (some newParentId))
    (hG : Framed sha paths G) :
    Proves sha paths d t call (Moving (Sees paths (ParentThere (some newParentId))) G)
      (reparent input.groupId newParentId)
      fun written ↦ Moving (fun v ↦ written = .done → Tidy paths v) G := by
  have hthere := lasting_parentThere (some newParentId)
  refine stands_bind (proves_requireById hthere hG _) fun group ↦ ?_
  have hgroup := hthere.and (lasting_group (uuid input.groupId) group.row)
  refine stands_bind (proves_reachesItself hgroup hG _ fun v h ↦ h.1) fun cyclic ↦ ?_
  refine stands_ite (fun _ ↦ ?_) fun hacyclic ↦ ?_
  · exact proves_pure fun _ _ h ↦ h.sees_of (fun _ h ↦ nomatch h)
  have houtside := hgroup.and (lasting_outside input.groupId newParentId)
  refine Stands.mono (stands_bind (proves_parentOf houtside hG newParentId) fun parent ↦ ?_)
    (fun _ _ _ h ↦ h.sees_of (fun h ↦ ⟨h.1, h.2.1, h.2.2 (by simpa using hacyclic)⟩))
    fun _ _ _ _ h ↦ h
  refine stands_bind (proves_setParent hspelled hcall hparent hG) fun written ↦ ?_
  refine stands_ite (fun _ ↦ proves_throw) fun hwritten ↦ ?_
  refine Stands.mono (stands_bind (proves_rewritePaths hsteady hG
      { group.row with parentId := newParentId.map uuid } rfl) fun rewritten ↦ ?_)
    (fun _ _ _ h ↦ h.sees_of (fun h ↦ h (by simpa using hwritten))) fun _ _ _ _ h ↦ h
  refine proves_pure fun _ _ h ↦ h.sees_of (fun h hdone ↦ h ?_)
  cases rewritten with
  | true => rfl
  | false => cases hdone

end Writes

end Move

/-! ### Amending -/

section Amending

variable {d : Discipline (groups sha)} {t : ℕ} {call : Call} {G : Frame}

theorem proves_refuseBidiControls {V : GroupRows → Prop} (field : Utf16)
    (value current : Option Utf16) :
    Proves sha paths d t call (Moving V G) (refuseBidiControls field value current)
      fun _ ↦ Moving V G :=
  stands_ite (fun _ ↦ proves_throw) fun _ ↦ proves_same

variable {parentId : Amended}

/-- A description is beside the tree. -/
theorem Sees.described {v : GroupRows} {ids : List Uuid}
    {description : Option Text} (h : Sees paths (ParentThere parentId) v) :
    Sees paths (ParentThere parentId) (laid (GroupOp.writes (existing v ids) fun id ↦
      (v.group id).map fun row ↦ { row with description }) v) := by
  refine ⟨⟨h.1.forest.of_same (sameForest_changed fun _ ↦ rfl), fun hpaths ↦
    (h.1.described hpaths).of_changed fun _ ↦ ⟨rfl, rfl, rfl⟩⟩, fun text htext ↦ ?_⟩
  obtain ⟨top, htop⟩ := h.2 text htext
  rw [group_changed, htop]
  split
  · exact ⟨_, rfl⟩
  · exact ⟨top, rfl⟩

theorem proves_describe (hG : Framed sha paths G) (groupId : Utf16)
    (description parentId : Amended) :
    Proves sha paths d t call (Moving (Sees paths (ParentThere parentId)) G)
      (describe groupId description)
      fun _ ↦ Moving (Sees paths (ParentThere parentId)) G := by
  have hkept : Kept paths (Sees paths (ParentThere parentId)) := (lasting_parentThere parentId).kept
  cases description with
  | none => exact proves_same
  | some =>
    refine proves_still_bind hkept hG (still_read rfl) fun held ↦ ?_
    refine stands_bind (proves_refuseBidiControls _ _ _) fun _ ↦ ?_
    refine stands_bind (proves_op hkept hG (fun _ ↦ excludes_writes) fun _ v h _ _ ↦
      (Sees.described h : Sees paths (ParentThere parentId) _)) fun written ↦ ?_
    exact stands_ite (fun _ ↦ proves_same) fun _ ↦ proves_throw

variable (hspelled : ∀ call op s, d.mayRun call op s → Spelled call op s)
  (hsteady : paths → ∀ call op s, d.mayRun call op s → Steady op s)

include hspelled hsteady

variable {input : AmendGroupInput}

theorem proves_amendWritten (hcall : call = .amend input)
    (hparent : input.parent = .ok parentId) (hG : Framed sha paths G)
    (description : Amended) :
    Proves sha paths d t call (Moving (Sees paths (ParentThere parentId)) G)
      (amendWritten input description parentId)
      fun written ↦ Moving (fun v ↦ written = .done → Tidy paths v) G := by
  refine stands_bind (proves_describe hG input.groupId description parentId) fun _ ↦ ?_
  cases parentId with
  | none => exact proves_pure fun _ _ h ↦ h.sees_of (fun h _ ↦ h.1)
  | some => exact proves_reparent hspelled hsteady hcall hparent hG

theorem proves_amendLocked (hcall : call = .amend input)
    (hparent : input.parent = .ok parentId) (hG : Framed sha paths G)
    (locked : GroupRecord) (description : Amended) :
    Proves sha paths d t call (Moving (Tidy paths) G)
      (amendLocked sha input locked description parentId) fun _ ↦ Moving (Tidy paths) G := by
  have hkept : Kept paths (Sees paths (ParentThere parentId)) := (lasting_parentThere parentId).kept
  have hrefused : ∀ outcome : Outcome,
      Proves sha paths d t call (Moving (Sees paths (ParentThere parentId)) G) (pure outcome)
        fun _ ↦ Moving (Tidy paths) G := fun _ ↦
    proves_pure fun _ _ h ↦ h.sees_of (fun h ↦ h.1)
  refine stands_bind (proves_unknownParent hG parentId) fun unknown ↦ ?_
  refine stands_ite (fun _ ↦ ?_) fun hknown ↦ ?_
  · exact proves_pure fun _ _ h ↦ h.sees_of (fun h ↦ h.1)
  refine Stands.mono (stands_bind (proves_nameTaken hkept hG input locked parentId) fun taken ↦ ?_)
    (fun _ _ _ h ↦ h.sees_of (fun h ↦ ⟨h.1, h.2 (by simpa using hknown)⟩))
    fun _ _ _ _ h ↦ h
  refine stands_ite (fun _ ↦ hrefused _) fun _ ↦ ?_
  refine stands_bind (proves_moveOverreach hkept hG input locked parentId)
    fun (granted, removed) ↦ ?_
  refine stands_ite (fun _ ↦ hrefused _) fun _ ↦ ?_
  refine stands_bind (proves_defaultOverreach hkept hG input parentId) fun capabilities ↦ ?_
  refine stands_ite (fun _ ↦ hrefused _) fun _ ↦ stands_savepoint_back fun saved ↦ ?_
  have hback : Framed sha paths fun w s ↦ G w s ∧
      @Back (groups sha) (Moving (Sees paths (ParentThere parentId)) G) saved w s :=
    hG.and (framed_back (stable_moving hkept hG) saved)
  refine Stands.mono (stands_bind (proves_amendWritten hspelled hsteady hcall hparent hback
    description) fun written ↦ ?_) (fun _ _ _ h ↦ h.1.mono (fun h ↦ h) fun hframe ↦ ⟨hframe, h.2⟩)
    fun _ _ _ _ h ↦ h
  have hundone : ∀ outcome : Outcome, Proves sha paths d t call
      (@Back (groups sha) (Moving (Sees paths (ParentThere parentId)) G) saved)
      (.rollbackTo saved (pure outcome)) fun _ ↦ Moving (Tidy paths) G := fun outcome ↦
    stands_rollbackTo_back (hrefused outcome)
  cases written with
  | cycle | taken => exact (hundone _).mono (fun _ _ _ h ↦ h.frame.2) fun _ _ _ _ h ↦ h
  | done =>
    refine Stands.mono (proves_still_bind kept_tidy hback (still_read rfl) fun after ↦ ?_)
      (fun _ _ _ h ↦ h.sees_of (fun h ↦ h rfl)) fun _ _ _ _ h ↦ h
    cases after with
    | none => exact proves_throw
    | some => exact proves_pure fun _ _ h ↦ h.mono (fun h ↦ h) fun h ↦ h.1

theorem proves_amendGroupUnguarded (hcall : call = .amend input)
    (hG : Framed sha paths G) :
    Proves sha paths d t call (Moving (Tidy paths) G) (amendGroupUnguarded sha input)
      fun _ ↦ Moving (Tidy paths) G := by
  have hrefused : ∀ outcome : Outcome,
      Proves sha paths d t call (Moving (Tidy paths) G) (pure outcome)
        fun _ ↦ Moving (Tidy paths) G := fun _ ↦ proves_same
  unfold amendGroupUnguarded
  split
  · exact hrefused _
  refine proves_still_bind kept_tidy hG (still_lockGroup _) fun found ↦ ?_
  cases found with
  | none => exact hrefused _
  | some locked =>
    refine stands_ite (fun _ ↦ hrefused _) fun _ ↦ ?_
    split
    case h_1 => exact hrefused _
    case h_2 => exact hrefused _
    case h_3 description parentId _ hparent =>
      exact proves_amendLocked hspelled hsteady hcall hparent hG locked description

end Amending

/-! ### Creating -/

section Create

variable {d : Discipline (groups sha)} {t : ℕ} {call : Call}

/-- A create that has written nothing but its lock. -/
def Entering (w : GroupWrites) (s : GroupRows) : Prop := w .creation ≠ none ∧ laid w s = s

theorem stable_entering : (contract sha paths).Stable Entering :=
  fun _ _ hapart h ↦ ⟨h.1, hapart.laidOver_same h.2⟩

theorem Entering.creating {w : GroupWrites} {s : GroupRows} (h : Entering w s)
    (hs : Tidy paths s) : Creating paths w s :=
  ⟨h.1, adds_of_same h.2, h.2.symm ▸ hs⟩

theorem proves_entering_read {op : GroupOp} (hop : op.effect = fun _ _ ↦ none) :
    Proves sha paths d t call Entering (run op) fun _ ↦ Entering := by
  refine stands_ask stable_entering fun w s _ _ h _ ↦ ?_
  change Entering (@Writes.andThen groupDatabase w (op.effect _)) s
  rw [hop]
  exact (@Writes.andThen_nothing groupDatabase w).symm ▸ h

theorem proves_entering_parentOf (parentId : Option Utf16) :
    Proves sha paths d t call Entering (parentOf parentId) fun _ ↦ Entering := by
  cases parentId with
  | none => exact proves_same
  | some parentId =>
    have hrequired : Proves sha paths d t call Entering (requireById parentId) fun _ ↦ Entering := by
      refine stands_bind (proves_entering_read rfl) fun found ↦ ?_
      cases found with
      | none => exact proves_throw
      | some => exact proves_same
    exact stands_bind hrequired fun _ ↦ proves_same

variable (hsteady : paths → ∀ call op s, d.mayRun call op s → Steady op s)

include hsteady

theorem proves_insert (id : Uuid) (parent : Option GroupRecord) (name : Utf16)
    (description : Option Utf16) (createdAt : Utf16) :
    Proves sha paths d t call Entering (run (.insert id parent name description createdAt))
      fun _ ↦ Creating paths := by
  refine stands_ask_may stable_entering fun w s _ hinv h hmay _ ↦ ?_
  obtain ⟨hheld, hsame⟩ := h
  have hseen : (w.laidOver s : GroupRows) = s := hsame
  rw [hseen] at hmay
  rw [hseen]
  change Creating paths (@Writes.andThen groupDatabase w (if GroupOp.insertable s id _ = true then _
    else _)) s
  split
  case isFalse =>
    exact (@Writes.andThen_nothing groupDatabase w).symm ▸ Entering.creating ⟨hheld, hsame⟩ hinv
  case isTrue hinsertable =>
    obtain ⟨hfree, hparent⟩ := free_of_insertable hinsertable
    refine ⟨fun hnone ↦ hheld (Writes.andThen_eq_none.mp hnone).1, adds_insertion hsame hfree, ?_⟩
    change Tidy paths (@Writes.laidOver groupDatabase _ s)
    rw [Writes.andThen_laidOver, hseen]
    refine ⟨hinv.forest.inserted hinsertable, fun hpaths ↦
      (hinv.described hpaths).inserted hfree (pathDescribed_inserted fun above habove ↦ ?_)⟩
    subst habove
    obtain ⟨top, htop⟩ := exists_of_parentHeld hparent rfl
    exact ⟨top, htop, hsteady hpaths _ _ _ hmay above rfl top htop⟩

theorem proves_create (input : CreateGroupInput) :
    Proves sha paths d t call Entering (create input) fun _ ↦ Creating paths := by
  have hrefused : ∀ field value, Proves sha paths d t call Entering
      (refuseBidiControls field value none) fun _ ↦ Entering := fun _ _ ↦
    stands_ite (fun _ ↦ proves_throw) fun _ ↦ proves_same
  refine stands_bind (hrefused _ _) fun _ ↦ stands_bind (hrefused _ _) fun _ ↦ ?_
  refine stands_bind (proves_entering_parentOf _) fun parent ↦ ?_
  refine stands_bind (proves_insert hsteady _ _ _ _ _) fun inserted ↦ ?_
  exact stands_ite (fun _ ↦ proves_same) fun _ ↦ proves_throw

theorem proves_createGroup (input : CreateGroupInput) :
    Proves sha paths d t call (fun w _ ↦ w = Writes.nothing) (createGroup input)
      fun _ ↦ Creating paths := by
  have hrefused : ∀ outcome : Outcome, Proves sha paths d t call Entering (pure outcome)
      fun _ ↦ Creating paths := fun _ ↦ stands_pure fun _ _ hinv h ↦ h.creating hinv
  refine stands_bind (M := fun _ ↦ Entering) ?_ fun _ ↦ ?_
  · refine stands_ask (stable_of_writes fun w ↦ w = Writes.nothing) fun w s _ _ hw _ ↦ ?_
    subst hw
    rw [Writes.nothing_andThen]
    exact ⟨Option.some_ne_none _, laid_lock .creation⟩
  refine stands_bind (proves_entering_read rfl) fun held ↦ ?_
  refine stands_ite (fun _ ↦ hrefused _) fun _ ↦ ?_
  refine stands_bind (M := fun _ ↦ Entering) ?_ fun denied ↦ ?_
  · unfold deniedUnder
    cases input.parentId with
    | none => exact proves_same
    | some =>
      refine stands_ite (fun _ ↦ proves_throw) fun _ ↦ ?_
      exact stands_bind (proves_entering_read rfl) fun _ ↦ proves_same
  refine stands_ite (fun _ ↦ hrefused _) fun _ ↦ ?_
  exact stands_bind (proves_create hsteady input) fun _ ↦ proves_same

end Create

/-! ### Runs -/

section Runs

variable {d : Discipline (groups sha)}
  (hspelled : ∀ call op s, d.mayRun call op s → Spelled call op s)
  (hsteady : paths → ∀ call op s, d.mayRun call op s → Steady op s)

include hspelled hsteady

theorem safe (t : ℕ) (call : Call) (s : GroupRows) (hs : Tidy paths s) :
    (contract sha paths).Safe d t call (call.body sha) Writes.nothing s := by
  cases call with
  | create input =>
    refine safe_of_stands (Stands.mono (proves_createGroup hsteady input) (fun _ _ _ h ↦ h) ?_) hs rfl
    exact fun outcome w s _ h ↦ ends_of_stable stable_creating
      (fun w s _ h _ ↦ ⟨h.tidy, Or.inl ⟨h.held, h.adds⟩⟩) h
  | amend =>
    refine safe_of_stands (Stands.mono (proves_guardLastAdministrator fun G hG ↦
      proves_amendGroupUnguarded hspelled hsteady rfl hG) (fun _ _ _ h ↦ h) ?_) hs rfl
    exact fun outcome w s _ h ↦ ends_of_stable (stable_moving kept_tidy framed_noFrame)
      (fun w s _ h _ ↦ ⟨h.sees, Or.inr ⟨h.held, h.excludes⟩⟩) h
  | delete input =>
    refine safe_of_stands (Stands.mono (proves_guardLastAdministrator fun G hG ↦
      proves_deleteGroupUnguarded input hG) (fun _ _ _ h ↦ h) ?_) hs rfl
    exact fun outcome w s _ h ↦ ends_of_stable (stable_moving kept_tidy framed_noFrame)
      (fun w s _ h _ ↦ ⟨h.sees, Or.inr ⟨h.held, h.excludes⟩⟩) h

/-- Every run keeps the forest, and its paths where they are asked about. -/
theorem tidy_of_reaches {rows : GroupRows} (hrows : Tidy paths rows) {c : Config (groups sha)}
    (hc : Reaches d (.start rows) c) : Tidy paths c.rows :=
  ((Contract.sound_start (K := contract sha paths) hrows).reaches
    (fun t call s _ hs ↦ safe hspelled hsteady t call s hs) hc).inv

end Runs

end Odudu.ProtocolAdmin.Groups
