import Odudu.ProtocolAdmin.ReplacedContents
import Odudu.ReadCommitted.RelyGuarantee
import Odudu.ReadCommitted.Schedule

/-!
# Replacements that name what they overwrite

Any number of requests replace lists whole, in any order of their statements.  A request takes
the lock of what it replaces before it reads it, and nobody else writes that until it commits;
so what it compares its `If-Match` with is what it overwrites (`Replaces`), and a request that
is refused changes nothing.  Of the requests that carry one tag, a second is committed only when
what the first overwrote is back (`replacements_name_what_they_overwrite`).
-/

set_option autoImplicit false

namespace Odudu.ProtocolAdmin.Replacements

open ReadCommitted Program Texts Etag

/-! ### What a statement writes -/

namespace Op

/-- The resource a statement writes to. -/
def target : Op → Option Resource
  | deleteSubjectRoles id | assignToSubject id _ => some (.subjectRoles id)
  | deleteGroupRoles id | mapToGroup id _ => some (.groupRoles id)
  | deleteSubjectGroups id | join id _ => some (.subjectGroups id)
  | deleteRequiredActions id | insertRequiredAction id _ => some (.requiredActions id)
  | deleteExecutions | insertExecutions _ => some .flow
  | insertDraft scope _ | updateDraft scope _ => some (.themeDraft scope)
  | _ => none

variable {op : Op} {rows : Rows} {k : layout.Key} {v : Option (layout.Row k.1)} {r : Resource}
  {table : Table}

theorem eq_of_put_lock [DecidableEq (layout.Id table)] {id : layout.Id table}
    (hempty : layout.Row table = Empty)
    (h : Layout.put (L := layout) table id none k = some v) : rows k = v := by
  obtain ⟨table', id'⟩ := k
  by_cases htable : table' = table
  · subst htable
    have hnone : ∀ cell : Option (layout.Row table'), cell = none := fun cell ↦ by
      cases cell with
      | none => rfl
      | some row => exact (cast hempty row).elim
    rw [hnone v, hnone (rows ⟨table', id'⟩)]
  · rw [Layout.put_of_ne htable] at h
    cases h

theorem eq_of_target_none (htarget : op.target = none) (h : op.effect rows k = some v) :
    rows k = v := by
  cases op <;> simp only [target, reduceCtorEq] at htarget <;> simp only [effect, reduceCtorEq] at h
  all_goals first
    | exact Layout.eq_of_update_same h
    | exact eq_of_put_lock rfl h

theorem owner_of_delete {wanted : layout.Id table → layout.Row table → Bool}
    (howner : ∀ id row, wanted id row = true → owner ⟨table, id⟩ = some r)
    (h : Layout.delete table wanted rows k = some v) : owner k = some r := by
  obtain ⟨table', id⟩ := k
  by_cases htable : table' = table
  · subst htable
    obtain ⟨-, row, -, hwanted⟩ := Layout.delete_eq_some h
    exact howner id row hwanted
  · rw [Layout.delete_of_ne htable] at h
    cases h

theorem owner_of_insert [DecidableEq (layout.Id table)] {id : layout.Id table}
    {row : layout.Row table} (howner : owner ⟨table, id⟩ = some r)
    (h : Layout.insert table id row rows k = some v) : owner k = some r := by
  obtain ⟨table', id'⟩ := k
  by_cases htable : table' = table
  · subst htable
    by_cases hid : id' = id
    · exact hid ▸ howner
    · rw [Layout.insert_other hid] at h
      cases h
  · rw [Layout.insert_of_ne htable] at h
    cases h

/-- What a statement writes to a resource is the resource's. -/
theorem owner_of_target (htarget : op.target = some r) (h : op.effect rows k = some v) :
    owner k = some r := by
  cases op <;> simp only [target, reduceCtorEq, Option.some.injEq] at htarget <;> subst htarget <;>
    simp only [effect] at h
  case assignToSubject | mapToGroup | join | insertRequiredAction | insertDraft =>
    exact owner_of_insert rfl h
  case insertExecutions steps =>
    obtain ⟨table, id⟩ := k
    by_cases htable : table = .authenticationExecutions
    · subst htable
      rfl
    · rw [Layout.onTable_of_ne htable] at h
      cases h
  case updateDraft scope body =>
    obtain ⟨table, id⟩ := k
    by_cases htable : table = .themeDrafts
    · subst htable
      obtain ⟨row, -, hwanted, -⟩ := Layout.update_eq_some h
      rw [of_decide_eq_true hwanted]
      rfl
    · rw [Layout.update_of_ne htable] at h
      cases h
  case deleteExecutions => exact owner_of_delete (fun _ _ _ ↦ rfl) h
  all_goals
    refine owner_of_delete (fun id row hwanted ↦ ?_) h
    rw [← eq_of_beq hwanted]
    rfl

end Op

/-! ### What a commit overwrites -/

variable {P : Platform}

/-- The precondition of the call holds of what its resource is read as, or the call names no
version and there is no draft. -/
def Overwrites (P : Platform) (call : Call) (s : Rows) : Prop :=
  (∃ record, call.resource.Shows P.uuids s record ∧
      requiredPrecondition call.ifMatch (call.resource.entityTag P.sha record) = .ok) ∨
    ∃ scope, call.resource = .themeDraft scope ∧ s.draft scope = none ∧ call.ifMatch = none

/-- The rows of the call's resource are written, under its lock, over what its precondition
holds of. -/
structure Replaces (P : Platform) (call : Call) (w : Writes database) (s : Rows) : Prop where
  locked : w call.resource.lock ≠ none
  others : ∀ k, owner k ≠ some call.resource → w.laidOver s k = s k
  overwrites : Overwrites P call s

def Outcome.isOk : Outcome → Bool
  | ok .. => true
  | _ => false

/-- A call that is not refused replaces; one that is refused changes nothing. -/
def naming (P : Platform) : Contract (replacements P) where
  Inv := fun _ ↦ True
  Guar := fun _ call s w outcome ↦
    w.laidOver s = s ∨ (Replaces P call w s ∧ ∃ o, outcome = some o ∧ o.isOk = true)
  Thrown := fun _ _ _ _ ↦ True
  kept := fun _ _ ↦ trivial

abbrev Known := Contract.Known (replacements P)

section Held

variable {call : Call} {w w' : Writes database} {s : Rows} {t : ℕ} {call' : Call}
  {outcome : Option Outcome} {r : Resource}

/-- Who holds a resource's lock reads what the others leave. -/
theorem agree_of_guar (hguar : (naming P).Guar t call' s w' outcome) (hapart : w'.Apart w)
    (hlocked : w r.lock ≠ none) : r.Agree s (w'.laidOver s) := by
  intro k hk
  rcases hguar with hsame | ⟨hreplaces, -⟩
  · exact (congrFun hsame k).symm
  · have hne : call'.resource ≠ r := fun heq ↦ by
      have hwritten := hreplaces.locked
      rw [heq] at hwritten
      exact (hapart r.lock).elim hwritten hlocked
    refine (hreplaces.others k fun howner ↦ ?_).symm
    rcases hk with hr | hnone
    · exact hne (Option.some.inj (howner.symm.trans hr))
    · exact absurd (howner.symm.trans hnone) (by simp)

theorem Overwrites.agree {s' : Rows} (h : Overwrites P call s) (hagree : call.resource.Agree s s') :
    Overwrites P call s' := by
  rcases h with ⟨record, hshows, hok⟩ | ⟨scope, hresource, hdraft, hnone⟩
  · exact Or.inl ⟨record, hagree.sameContent.shows hshows, hok⟩
  · refine Or.inr ⟨scope, hresource, ?_, hnone⟩
    have hsame := (hresource ▸ hagree).sameContent
    exact hsame.symm.trans hdraft

/-- Rows are only locked so far. -/
abbrev Locks : Writes database → Rows → Prop := fun w s ↦ w.laidOver s = s

/-- The call's lock is held, and nothing is changed. -/
def Holds (call : Call) (w : Writes database) (s : Rows) : Prop :=
  w call.resource.lock ≠ none ∧ Locks w s

/-- What is there under the lock is what the precondition holds of. -/
def Matched (P : Platform) (call : Call) (w : Writes database) (s : Rows) : Prop :=
  Holds call w s ∧ Overwrites P call s

theorem stable_holds : (naming P).Stable (Holds call) :=
  fun hinv hguar hapart h ↦ ⟨h.1, Contract.stable_locks hinv hguar hapart h.2⟩

theorem stable_matched : (naming P).Stable (Matched P call) :=
  fun hinv hguar hapart h ↦
    ⟨stable_holds hinv hguar hapart h.1, h.2.agree (agree_of_guar hguar hapart h.1.1)⟩

theorem stable_replaces : (naming P).Stable (Replaces P call) := by
  intro t call' s w w' outcome hinv hguar hapart h
  refine ⟨h.locked, fun k hk ↦ ?_, h.overwrites.agree (agree_of_guar hguar hapart h.locked)⟩
  cases hcell : w k with
  | none => exact Writes.laidOver_of_none hcell _
  | some =>
    have hkept := h.others k hk
    rw [Writes.laidOver_of_some hcell] at hkept
    rw [Writes.laidOver_of_some hcell, hapart.laidOver_eq hcell, hkept]

/-- What is known before anything is changed, and is still known when more is locked. -/
structure Quiet (P : Platform) (X : Writes database → Rows → Prop) : Prop where
  stable : (naming P).Stable X
  locks : ∀ {w s}, X w s → Locks w s
  grows : ∀ {w s later}, X w s → later.laidOver s = s → X (w.andThen later) s

variable {later : Writes database}

theorem Locks.grows (h : Locks w s) (hlater : later.laidOver s = s) :
    Locks (w.andThen later) s := by
  rw [Locks, Writes.andThen_laidOver, h]
  exact hlater

theorem Holds.grows (h : Holds call w s)
    (hlater : later.laidOver s = s) : Holds call (w.andThen later) s :=
  ⟨fun hnone ↦ h.1 (Writes.andThen_eq_none.mp hnone).1, h.2.grows hlater⟩

theorem quiet_locks : Quiet P Locks :=
  ⟨Contract.stable_locks, fun h ↦ h, fun h hlater ↦ h.grows hlater⟩

theorem quiet_holds : Quiet P (Holds call) :=
  ⟨stable_holds, fun h ↦ h.2, fun h hlater ↦ h.grows hlater⟩

theorem quiet_matched : Quiet P (Matched P call) :=
  ⟨stable_matched, fun h ↦ h.1.2, fun h hlater ↦ ⟨h.1.grows hlater, h.2⟩⟩

theorem Matched.replaces (h : Matched P call w s) : Replaces P call w s :=
  ⟨h.1.1, fun k _ ↦ congrFun h.1.2 k, h.2⟩

theorem Replaces.grows (h : Replaces P call w s)
    (hlater : ∀ k v, later k = some v →
      owner k = some call.resource ∨ w.laidOver s k = v) : Replaces P call (w.andThen later) s where
  locked := fun hnone ↦ h.locked (Writes.andThen_eq_none.mp hnone).1
  others := by
    intro k hk
    rw [Writes.andThen_laidOver]
    cases hcell : later k with
    | none => rw [Writes.laidOver_of_none hcell, h.others k hk]
    | some v =>
      have hseen := (hlater k v hcell).resolve_left hk
      rw [Writes.laidOver_of_some hcell, ← hseen, h.others k hk]
  overwrites := h.overwrites

end Held

/-- How a call stands when it has its outcome. -/
def Finished (P : Platform) (call : Call) (outcome : Outcome) : Writes database → Rows → Prop :=
  fun w s ↦ Locks w s ∨ (Replaces P call w s ∧ outcome.isOk = true)

theorem stable_finished {call : Call} {outcome : Outcome} :
    (naming P).Stable (Finished P call outcome) := by
  intro t call' s w w' outcome' hinv hguar hapart h
  rcases h with hlocks | ⟨hreplaces, hok⟩
  · exact Or.inl (Contract.stable_locks hinv hguar hapart hlocks)
  · exact Or.inr ⟨stable_replaces hinv hguar hapart hreplaces, hok⟩

/-! ### The rules of the statements -/

section Rules

open Contract

variable {t : ℕ} {call : Call} {op : Op} {α : Type} {X : Writes database → Rows → Prop}
  {Q : α → Writes database → Rows → Prop} {f : op.Answer → Tx α}

variable (P t call) in
/-- From what is known before a program to what is known after it. -/
abbrev Proves (X : Writes database → Rows → Prop) (p : Tx α)
    (Q : α → Writes database → Rows → Prop) : Prop :=
  (naming P).Stands Discipline.free t call X p Q

/-- A statement that writes to no resource. -/
theorem proves_still (hX : Quiet P X) (hop : op.target = none) :
    Proves P t call X (run op) fun a w s ↦ X w s ∧ op.Answers s a := by
  refine stands_ask hX.stable fun w s a _ hknown ha ↦ ?_
  have hlocks := hX.locks hknown
  change op.Answers (w.laidOver s) a at ha
  change X (w.andThen (op.effect (w.laidOver s))) s ∧ op.Answers s a
  rw [hlocks] at ha ⊢
  exact ⟨hX.grows hknown (Writes.laidOver_same fun k v ↦ Op.eq_of_target_none hop), ha⟩

theorem proves_read_bind (hX : Quiet P X) (hop : op.target = none)
    (hf : ∀ a, Proves P t call (fun w s ↦ X w s ∧ op.Answers s a) (f a) Q) :
    Proves P t call X (run op >>= f) Q :=
  stands_bind (proves_still hX hop) hf

theorem proves_still_bind (hX : Quiet P X) (hop : op.target = none)
    (hf : ∀ a, Proves P t call X (f a) Q) : Proves P t call X (run op >>= f) Q :=
  proves_read_bind hX hop fun a ↦ (hf a).mono (fun _ _ _ h ↦ h.1) fun _ _ _ _ h ↦ h

/-- The statement that takes the call's lock, and whether there was anything to lock. -/
theorem proves_lock_bind (there : op.Answer → Prop) (hop : op.target = none)
    (hlock : ∀ s a, op.Answers s a → there a → op.effect s call.resource.lock ≠ none)
    (habsent : ∀ a, ¬there a → Proves P t call Locks (f a) Q)
    (hheld : ∀ a, there a → Proves P t call (Holds call) (f a) Q) :
    Proves P t call Locks (run op >>= f) Q := by
  refine stands_bind (M := fun a w s ↦ Locks w s ∧ (there a → Holds call w s)) ?_ fun a ↦ ?_
  · refine stands_ask stable_locks fun w s a _ hknown ha ↦ ?_
    change op.Answers (w.laidOver s) a at ha
    rw [hknown] at ha
    have hgrown : Locks (w.andThen (op.effect s)) s :=
      hknown.grows (Writes.laidOver_same fun k v ↦ Op.eq_of_target_none hop)
    change Locks (w.andThen (op.effect (w.laidOver s))) s ∧
      (there a → Holds call (w.andThen (op.effect (w.laidOver s))) s)
    rw [hknown]
    exact ⟨hgrown, fun hthere ↦
      ⟨fun hnone ↦ hlock s a ha hthere (Writes.andThen_eq_none.mp hnone).2, hgrown⟩⟩
  · by_cases hthere : there a
    · exact (hheld a hthere).mono (fun _ _ _ h ↦ h.2 hthere) fun _ _ _ _ h ↦ h
    · exact (habsent a hthere).mono (fun _ _ _ h ↦ h.1) fun _ _ _ _ h ↦ h

theorem proves_write (hop : op.target = none ∨ op.target = some call.resource) :
    Proves P t call (Replaces P call) (run op) fun _ ↦ Replaces P call := by
  refine stands_ask stable_replaces fun w s a _ hknown ha ↦ hknown.grows fun k v hv ↦ ?_
  rcases hop with hnone | htarget
  · exact Or.inr (Op.eq_of_target_none hnone hv)
  · exact Or.inl (Op.owner_of_target htarget hv)

theorem proves_write_bind (hop : op.target = none ∨ op.target = some call.resource)
    (hf : ∀ a, Proves P t call (Replaces P call) (f a) Q) :
    Proves P t call (Replaces P call) (run op >>= f) Q :=
  stands_bind (proves_write hop) hf

theorem proves_insertAll {β : Type} {insert : β → Tx Bool}
    (hinsert : ∀ b, Proves P t call (Replaces P call) (insert b) fun _ ↦ Replaces P call)
    (items : List β) :
    Proves P t call (Replaces P call) (insertAll insert items) fun _ ↦ Replaces P call := by
  induction items with
  | nil => exact stands_pure fun _ _ _ h ↦ h
  | cons b _ ih =>
    refine stands_bind (hinsert b) fun inserted ↦ ?_
    exact stands_ite (fun _ ↦ ih) fun _ ↦ stands_throw fun _ ↦ trivial

theorem proves_refusal (hX : Quiet P X) (outcome : Outcome) :
    Proves P t call X (pure outcome) (Finished P call) :=
  stands_pure fun _ _ _ h ↦ Or.inl (hX.locks h)

theorem proves_ok (record : Record) (etag : Utf16) :
    Proves P t call (Replaces P call) (pure (.ok record etag)) (Finished P call) :=
  stands_pure fun _ _ _ h ↦ Or.inr ⟨h, rfl⟩

/-- What is read is compared with the header, and replaced only when the header names it. -/
theorem proves_guarded (record : Record) {write : Tx Outcome}
    (hwrite : Proves P t call (Matched P call) write (Finished P call)) :
    Proves P t call (fun w s ↦ Holds call w s ∧ call.resource.Shows P.uuids s record)
      (guarded call.ifMatch (call.resource.entityTag P.sha record) write) (Finished P call) := by
  unfold guarded
  cases hprecondition :
      requiredPrecondition call.ifMatch (call.resource.entityTag P.sha record) with
  | required | failed => exact stands_pure fun _ _ _ h ↦ Or.inl h.1.2
  | ok =>
    exact hwrite.mono (fun _ _ _ h ↦ ⟨h.1, Or.inl ⟨record, h.2, hprecondition⟩⟩) fun _ _ _ _ h ↦ h

end Rules

/-! ### The requests -/

section Requests

open Contract

variable {t : ℕ} {call : Call}

/-- A row that is there is locked. -/
theorem lock_there {T : layout.Table} [DecidableEq (layout.Id T)] {id : layout.Id T} {s : Rows} {a : Bool}
    (h : a = (s ⟨T, id⟩ : Option (layout.Row T)).isSome) (ha : a = true) :
    Layout.lock (L := layout) T id s ⟨T, id⟩ ≠ none := by
  obtain ⟨row, hrow⟩ := Option.isSome_iff_exists.mp (h.symm.trans ha)
  rw [Layout.lock, Layout.update_of_wanted hrow (decide_eq_true rfl)]
  exact Option.some_ne_none _

theorem proves_missingRoles {roleIds : List Utf16} {α : Type}
    {f : List Utf16 × List RoleId → Tx α} {Q : α → Writes database → Rows → Prop}
    (hf : ∀ found, Proves P t call (Matched P call) (f found) Q) :
    Proves P t call (Matched P call) (missingRoles P roleIds >>= f) Q := by
  refine stands_bind (M := fun _ ↦ Matched P call) ?_ hf
  exact proves_still_bind quiet_matched rfl fun _ ↦ stands_pure fun _ _ _ h ↦ h

variable {rest : Tx Outcome}

/-- A request on a subject goes on under the subject's lock. -/
theorem proves_lockSubject {id : SubjectId}
    (hlock : call.resource.lock = ⟨.subjects, id⟩)
    (hrest : Proves P t call (Holds call) rest (Finished P call)) :
    Proves P t call Locks
      (do
        let there ← run (.lockSubject id)
        if !there then pure .notFound else rest) (Finished P call) := by
  refine proves_lock_bind (fun there ↦ there = true) rfl (fun _ _ h ha ↦ hlock ▸ lock_there h ha)
    (fun there hthere ↦ ?_) fun there hthere ↦ ?_
  · exact stands_ite (fun _ ↦ proves_refusal quiet_locks _) fun hc ↦
      absurd hthere (by simpa using hc)
  · exact stands_ite (fun _ ↦ proves_refusal quiet_holds _) fun _ ↦ hrest

/-- A request on a subject is refused where the caller may not reach it. -/
theorem proves_targetOverreach {id : SubjectId} {callerCapabilities : List Utf16}
    (hrest : Proves P t call (Holds call) rest (Finished P call)) :
    Proves P t call (Holds call)
      (do
        let held ← run (.targetOverreach id)
        let refused := overreach held callerCapabilities
        if refused ≠ [] then pure (.targetCeiling refused) else rest) (Finished P call) :=
  proves_still_bind quiet_holds rfl fun _ ↦
    stands_ite (fun _ ↦ proves_refusal quiet_holds _) fun _ ↦ hrest

/-- A statement that reads the resource, and what its precondition guards. -/
theorem proves_read_guarded {op : Op} {record : op.Answer → Record} {write : op.Answer → Tx Outcome}
    (hop : op.target = none)
    (hshows : ∀ s a, op.Answers s a → call.resource.Shows P.uuids s (record a))
    (hwrite : ∀ a, Proves P t call (Matched P call) (write a) (Finished P call)) :
    Proves P t call (Holds call)
      (do
        let current ← run op
        guarded call.ifMatch (call.resource.entityTag P.sha (record current)) (write current))
      (Finished P call) :=
  proves_read_bind quiet_holds hop fun a ↦
    (proves_guarded _ (hwrite a)).mono (fun _ s _ h ↦ ⟨h.1, hshows s a h.2⟩) fun _ _ _ _ h ↦ h

theorem proves_matched_writes {p : Tx Outcome}
    (hp : Proves P t call (Replaces P call) p (Finished P call)) :
    Proves P t call (Matched P call) p (Finished P call) :=
  hp.mono (fun _ _ _ ↦ Matched.replaces) fun _ _ _ _ h ↦ h

theorem proves_setRoles (input : SetRolesInput) :
    Proves P t (.setRoles input) Locks (setRolesUnguarded P input)
      (Finished P (.setRoles input)) := by
  refine proves_lockSubject rfl (proves_targetOverreach ?_)
  refine proves_read_guarded rfl (fun s a h ↦ ⟨a, h, rfl⟩) fun current ↦ ?_
  refine proves_missingRoles fun (missing, ids) ↦ ?_
  refine stands_ite (fun _ ↦ proves_refusal quiet_matched _) fun _ ↦ ?_
  refine proves_still_bind quiet_matched rfl fun requested ↦ ?_
  refine stands_ite (fun _ ↦ proves_refusal quiet_matched _) fun _ ↦ proves_matched_writes ?_
  refine proves_write_bind (Or.inr rfl) fun _ ↦ ?_
  refine stands_bind (proves_insertAll (fun id ↦ proves_write (Or.inr rfl)) ids) fun _ ↦ ?_
  exact proves_write_bind (Or.inl rfl) fun assigned ↦ proves_ok _ _

theorem proves_reachedByDefault (default : Bool) (ids : List RoleId) :
    Proves P t call (Matched P call) (reachedByDefault default ids) fun _ ↦ Matched P call := by
  refine stands_ite (fun _ ↦ ?_) fun _ ↦ stands_pure fun _ _ _ h ↦ h
  exact (proves_still quiet_matched rfl).mono (fun _ _ _ h ↦ h) fun _ _ _ _ h ↦ h.1

theorem proves_setGroupRoles (input : SetGroupRolesInput) :
    Proves P t (.setGroupRoles input) Locks (setGroupRolesUnguarded P input)
      (Finished P (.setGroupRoles input)) := by
  refine proves_lock_bind (fun there ↦ there = true) rfl (fun _ _ h ha ↦ lock_there h ha)
    (fun there hthere ↦ ?_) fun there hthere ↦ ?_
  · exact stands_ite (fun _ ↦ proves_refusal quiet_locks _) fun hc ↦
      absurd hthere (by simpa using hc)
  refine stands_ite (fun _ ↦ proves_refusal quiet_holds _) fun _ ↦ ?_
  refine proves_read_guarded rfl (fun s a h ↦ ⟨a, h, rfl⟩) fun current ↦ ?_
  refine proves_missingRoles fun (missing, ids) ↦ ?_
  refine stands_ite (fun _ ↦ proves_refusal quiet_matched _) fun _ ↦ ?_
  refine proves_still_bind quiet_matched rfl fun before ↦ ?_
  refine proves_still_bind quiet_matched rfl fun granted ↦ ?_
  refine proves_still_bind quiet_matched rfl fun removed ↦ ?_
  refine stands_ite (fun _ ↦ proves_refusal quiet_matched _) fun _ ↦ ?_
  refine proves_still_bind quiet_matched rfl fun _ ↦ ?_
  refine proves_still_bind quiet_matched rfl fun default ↦ ?_
  refine stands_bind (proves_reachedByDefault default ids) fun capabilities ↦ ?_
  refine stands_ite (fun _ ↦ proves_refusal quiet_matched _) fun _ ↦ ?_
  refine proves_still_bind quiet_matched rfl fun group ↦ ?_
  refine stands_ite (fun _ ↦ stands_throw fun _ ↦ trivial) fun _ ↦ proves_matched_writes ?_
  refine proves_write_bind (Or.inr rfl) fun _ ↦ ?_
  refine stands_bind (proves_insertAll (fun id ↦ proves_write (Or.inr rfl)) ids) fun _ ↦ ?_
  exact proves_write_bind (Or.inl rfl) fun mapped ↦ proves_ok _ _

theorem proves_setRequiredActions (input : SetRequiredActionsInput) :
    Proves P t (.setRequiredActions input) Locks (setRequiredActions P input)
      (Finished P (.setRequiredActions input)) := by
  refine proves_lockSubject rfl (proves_targetOverreach ?_)
  refine proves_read_guarded rfl (fun s a h ↦ ⟨a, h, rfl⟩) fun current ↦ proves_matched_writes ?_
  refine proves_write_bind (Or.inr rfl) fun _ ↦ ?_
  refine stands_bind (proves_insertAll (fun action ↦ proves_write (Or.inr rfl)) _) fun _ ↦ ?_
  exact proves_write_bind (Or.inl rfl) fun actions ↦ proves_ok _ _

theorem proves_missingGroups (texts missing : List Utf16) (found : List GroupId) :
    Proves P t call (Matched P call) (missingGroups P texts missing found)
      fun _ ↦ Matched P call := by
  induction texts generalizing missing found with
  | nil => exact stands_pure fun _ _ _ h ↦ h
  | cons _ _ ih =>
    unfold missingGroups
    split
    · exact ih _ _
    · refine proves_still_bind quiet_matched rfl fun group ↦ ?_
      cases group with
      | none | some => exact ih _ _

theorem proves_joinGroup {id : SubjectId} (hcall : call.resource = .subjectGroups id)
    (group : GroupId) :
    Proves P t call (Replaces P call) (joinGroup id group) fun _ ↦ Replaces P call := by
  refine proves_write_bind (Or.inl rfl) fun there ↦ ?_
  refine stands_ite (fun _ ↦ stands_throw fun _ ↦ trivial) fun _ ↦ ?_
  exact proves_write (Or.inr (congrArg some hcall.symm))

theorem proves_setSubjectGroups (input : SetSubjectGroupsInput) :
    Proves P t (.setSubjectGroups input) Locks (setSubjectGroupsUnguarded P input)
      (Finished P (.setSubjectGroups input)) := by
  refine proves_lockSubject rfl (proves_targetOverreach ?_)
  refine proves_read_guarded rfl (fun s a h ↦ ⟨a, h, rfl⟩) fun current ↦ ?_
  refine stands_bind (proves_missingGroups input.groupIds [] []) fun (missing, found) ↦ ?_
  refine stands_ite (fun _ ↦ proves_refusal quiet_matched _) fun _ ↦ ?_
  refine proves_still_bind quiet_matched rfl fun requested ↦ ?_
  refine stands_ite (fun _ ↦ proves_refusal quiet_matched _) fun _ ↦ proves_matched_writes ?_
  refine proves_write_bind (Or.inr rfl) fun _ ↦ ?_
  refine stands_bind (proves_insertAll (proves_joinGroup rfl) found) fun _ ↦ ?_
  exact proves_write_bind (Or.inl rfl) fun updated ↦ proves_ok _ _

theorem proves_replaceForTenant {input : ReplaceFlowInput} (steps : List ExecutionInput) :
    Proves P t (.replaceFlow input) (Replaces P (.replaceFlow input)) (replaceForTenant steps)
      fun _ ↦ Replaces P (.replaceFlow input) := by
  refine proves_write_bind (Or.inl rfl) fun _ ↦ ?_
  refine proves_write_bind (Or.inl rfl) fun _ ↦ ?_
  refine proves_write_bind (Or.inr rfl) fun _ ↦ ?_
  refine stands_ite (fun _ ↦ stands_pure fun _ _ _ h ↦ h) fun _ ↦ ?_
  refine proves_write_bind (Or.inr rfl) fun inserted ↦ ?_
  exact stands_ite (fun _ ↦ stands_pure fun _ _ _ h ↦ h) fun _ ↦ stands_throw fun _ ↦ trivial

theorem proves_replaceFlow (input : ReplaceFlowInput) :
    Proves P t (.replaceFlow input) Locks (replaceFlow P input)
      (Finished P (.replaceFlow input)) := by
  unfold replaceFlow
  cases P.flowRefusal input.steps with
  | some => exact proves_refusal quiet_locks _
  | none =>
    refine proves_lock_bind (fun _ ↦ True) rfl (fun s _ _ _ ↦ ?_) (fun _ h ↦ absurd trivial h)
      fun _ _ ↦ ?_
    · intro hnone
      have hput := @Layout.put_self layout _ .flowLock _ () none
      exact absurd (hput.symm.trans hnone) (Option.some_ne_none _)
    refine proves_read_guarded rfl (fun s a h ↦ ⟨a, h, rfl⟩) fun before ↦ proves_matched_writes ?_
    exact stands_bind (proves_replaceForTenant input.steps) fun rows ↦ proves_ok _ _

variable {input : SaveDraftInput}

theorem proves_saveDraftRow (body : Record) (ifMatch : Option Utf16) :
    Proves P t (.saveDraft input) (Matched P (.saveDraft input))
      (saveDraftRow P input.target body ifMatch)
      fun saved w s ↦ (saved = true → Replaces P (.saveDraft input) w s) ∧
        (saved = false → Locks w s) := by
  have hunsaved : Proves P t (.saveDraft input) (Matched P (.saveDraft input)) (pure false)
      fun saved w s ↦ (saved = true → Replaces P (.saveDraft input) w s) ∧
        (saved = false → Locks w s) :=
    stands_pure fun _ _ _ h ↦ ⟨fun hsaved ↦ Bool.noConfusion hsaved, fun _ ↦ h.1.2⟩
  refine proves_still_bind quiet_matched rfl fun current ↦ ?_
  cases current with
  | none =>
    refine stands_ite (fun _ ↦ hunsaved) fun _ ↦ ?_
    refine stands_ask stable_matched fun w s a _ h ha ↦ ⟨fun hsaved ↦ ?_, fun hunsaved ↦ ?_⟩
    · exact h.replaces.grows fun k v hv ↦ Or.inl
        (@Op.owner_of_target (.insertDraft input.target body) (w.laidOver s) k v _ rfl hv)
    · -- A draft is there: nothing is inserted.
      have hthere : (Rows.draft (w.laidOver s) input.target).isNone = false :=
        ha.symm.trans hunsaved
      obtain ⟨stored, hstored⟩ := Option.isSome_iff_exists.mp (Option.isNone_eq_false_iff.mp hthere)
      have hnothing := @Layout.insert_eq_none layout _ .themeDrafts _ input.target body
        (w.laidOver s) stored hstored
      exact h.1.2.grows (Writes.laidOver_same fun k v hk ↦ by
        change
          Layout.insert (L := layout) .themeDrafts input.target body (w.laidOver s) k = some v at hk
        rw [hnothing] at hk
        cases hk)
  | some =>
    refine stands_ite (fun _ ↦ hunsaved) fun _ ↦ ?_
    refine Stands.mono (proves_write_bind (Or.inr rfl) fun _ ↦ ?_) (fun _ _ _ ↦ Matched.replaces)
      fun _ _ _ _ h ↦ h
    exact stands_pure fun _ _ _ h ↦ ⟨fun _ ↦ h, fun hunsaved ↦ Bool.noConfusion hunsaved⟩

theorem proves_saveChecked (body : Record) (current : Option Record) :
    Proves P t (.saveDraft input) (Matched P (.saveDraft input))
      (saveChecked P input.target body current) (Finished P (.saveDraft input)) := by
  refine proves_still_bind quiet_matched rfl fun errors ↦ ?_
  refine stands_ite (fun _ ↦ proves_refusal quiet_matched _) fun _ ↦ ?_
  refine stands_bind (proves_saveDraftRow body _) fun saved ↦ ?_
  refine stands_ite (fun hc ↦ ?_) fun hc ↦ ?_
  · exact stands_pure fun _ _ _ h ↦ Or.inl (h.2 (by simpa using hc))
  · refine Stands.mono (proves_write_bind (Or.inl rfl) fun draft ↦ ?_)
      (fun _ _ _ h ↦ h.1 (by simpa using hc)) fun _ _ _ _ h ↦ h
    cases draft with
    | none => exact stands_throw fun _ ↦ trivial
    | some => exact proves_ok _ _

theorem proves_saveDraft (input : SaveDraftInput) :
    Proves P t (.saveDraft input) Locks (saveDraft P input) (Finished P (.saveDraft input)) := by
  have hexists : Proves P t (.saveDraft input) Locks (clientExists input.target)
      fun _ ↦ Locks := by
    unfold clientExists
    cases input.target with
    | none => exact stands_pure fun _ _ _ h ↦ h
    | some => exact (proves_still quiet_locks rfl).mono (fun _ _ _ h ↦ h) fun _ _ _ _ h ↦ h.1
  refine stands_bind hexists fun there ↦ ?_
  refine stands_ite (fun _ ↦ proves_refusal quiet_locks _) fun _ ↦ ?_
  cases P.parseThemeBody input.body with
  | none => exact proves_refusal quiet_locks _
  | some body =>
    refine proves_lock_bind (fun _ ↦ True) rfl (fun s _ _ _ ↦ ?_) (fun _ h ↦ absurd trivial h)
      fun _ _ ↦ ?_
    · intro hnone
      have hput := @Layout.put_self layout _ .themeLock _ input.target none
      exact absurd (hput.symm.trans hnone) (Option.some_ne_none _)
    refine proves_read_bind quiet_holds rfl fun current ↦ ?_
    cases current with
    | none =>
      refine stands_ite (fun _ ↦ stands_pure fun _ _ _ h ↦ Or.inl h.1.2) fun hifMatch ↦ ?_
      have hnone : input.ifMatch = none := by simpa using hifMatch
      exact (proves_saveChecked body none).mono
        (fun _ _ _ h ↦ ⟨h.1, Or.inr ⟨input.target, rfl, h.2.symm, hnone⟩⟩) fun _ _ _ _ h ↦ h
    | some stored =>
      exact Stands.mono (proves_guarded stored (proves_saveChecked body (some stored)))
        (fun _ _ _ h ↦ ⟨h.1, h.2.symm⟩) fun _ _ _ _ h ↦ h

/-! The last administrator -/

/-- Nothing is locked but the administrators' advisory lock. -/
def Advisory (w : Writes database) : Prop := ∀ k v, w k = some v → k.1 = .administrators

theorem Advisory.locks {w : Writes database} (h : Advisory w) (s : Rows) : Locks w s := by
  refine Writes.laidOver_same fun k v hk ↦ ?_
  obtain ⟨table, id⟩ := k
  obtain rfl : table = .administrators := h _ v hk
  have hnone : ∀ cell : Option Empty, cell = none := fun cell ↦ by
    cases cell with
    | none => rfl
    | some row => exact row.elim
  exact (hnone _).trans (hnone _).symm

theorem proves_guardLastAdministrator {write : Tx Outcome}
    (hwrite : Proves P t call Locks write (Finished P call)) :
    Proves P t call (fun w _ ↦ w = Writes.nothing) (guardLastAdministrator write)
      (Finished P call) := by
  refine stands_bind (M := fun _ w _ ↦ Advisory w) ?_ fun _ ↦ ?_
  · refine stands_ask (stable_of_writes fun w ↦ w = Writes.nothing) fun w s _ _ hw _ ↦ ?_
    subst hw
    intro k v hk
    rw [Writes.nothing_andThen] at hk
    by_contra htable
    have hput := @Layout.put_of_ne layout _ .administrators k.1 _ () none htable k.2
    exact absurd (hput.symm.trans hk) (by simp)
  refine stands_bind (M := fun _ w _ ↦ Advisory w) ?_ fun held ↦ ?_
  · refine stands_ask (fun _ _ _ hw ↦ hw) fun w s _ _ hw _ ↦ ?_
    change Advisory (w.andThen Writes.nothing)
    rw [Writes.andThen_nothing]
    exact hw
  refine stands_ite (fun _ ↦ stands_savepoint fun saved ↦ ?_) fun _ ↦ ?_
  · by_cases hsaved : Advisory saved
    · refine Stands.mono ?_ (fun w s _ h ↦ h.2.locks s) fun _ _ _ _ h ↦ h
      refine stands_bind hwrite fun outcome ↦ ?_
      refine stands_bind (M := fun _ ↦ Finished P call outcome) ?_ fun still ↦ ?_
      · refine stands_ask stable_finished fun w s _ _ hw _ ↦ ?_
        change Finished P call outcome (w.andThen Writes.nothing) s
        rw [Writes.andThen_nothing]
        exact hw
      refine stands_ite (fun _ ↦ stands_pure fun _ _ _ h ↦ h) fun _ ↦ ?_
      refine stands_rollbackTo (stands_pure fun w s _ hw ↦ Or.inl ?_)
      exact Advisory.locks (fun k v hk ↦ hsaved k v (hw k v hk)) s
    · exact fun w s _ h ↦ absurd (h.1 ▸ h.2) hsaved
  · exact hwrite.mono (fun w s _ h ↦ h.locks s) fun _ _ _ _ h ↦ h

/-- Every request replaces what it names, or changes nothing. -/
theorem proves_body (call : Call) :
    Proves P t call (fun w _ ↦ w = Writes.nothing) (call.body P) (Finished P call) := by
  have hunguarded : ∀ {p : Tx Outcome}, Proves P t call Locks p (Finished P call) →
      Proves P t call (fun w _ ↦ w = Writes.nothing) p (Finished P call) := fun hp ↦
    hp.mono (fun w s _ hw ↦ hw ▸ Writes.nothing_laidOver s) fun _ _ _ _ h ↦ h
  cases call with
  | setRoles input => exact proves_guardLastAdministrator (proves_setRoles input)
  | setGroupRoles input => exact proves_guardLastAdministrator (proves_setGroupRoles input)
  | setRequiredActions input => exact hunguarded (proves_setRequiredActions input)
  | setSubjectGroups input => exact proves_guardLastAdministrator (proves_setSubjectGroups input)
  | replaceFlow input => exact hunguarded (proves_replaceFlow input)
  | saveDraft input => exact hunguarded (proves_saveDraft input)

theorem safe (t : ℕ) (call : Call) (s : Rows) :
    (naming P).Safe Discipline.free t call (call.body P) Writes.nothing s := by
  refine safe_of_stands (Stands.mono (proves_body call) (fun _ _ _ h ↦ h) ?_) trivial rfl
  intro outcome w s _ hfinished
  refine ends_of_stable stable_finished (fun w s _ h _ ↦ ?_) hfinished
  rcases h with hlocks | ⟨hreplaces, hok⟩
  · exact Or.inl hlocks
  · exact Or.inr ⟨hreplaces, outcome, rfl, hok⟩

end Requests

/-! ### Runs -/

section Runs

/-- The header of the call names one tag and no other. -/
def Call.Carries (call : Call) (tag : Utf16) : Prop :=
  ∃ header, call.ifMatch = some header ∧ ∀ member ∈ members header, member = tag

/-- The call is answered by the step, last. -/
def AnsweredBy (c c' : Config (replacements P)) (call : Call) : Prop :=
  ∃ t result, c'.history = ⟨t, call, result⟩ :: c.history

variable {c c' : Config (replacements P)} {r : Resource} {rows : Rows}

theorem sound_of_reaches (hreaches : Reaches .free (Config.start rows) c) :
    (naming P).Sound .free 0 c :=
  (Contract.sound_start trivial).reaches (fun t call s _ _ ↦ safe t call s) hreaches

/-- What a step makes of a resource it makes by the commit of a request on it, over what the
request's precondition holds of. -/
theorem overwrites_of_step (hreaches : Reaches .free (Config.start rows) c)
    (hstep : Step .free c c') (hchanged : ¬r.SameContent c.rows c'.rows) :
    ∃ t call outcome, c'.history = ⟨t, call, .ok outcome⟩ :: c.history ∧ outcome.isOk = true ∧
      call.resource = r ∧ Overwrites P call c.rows := by
  have hsame : ∀ {s : Rows}, r.SameContent s s := Resource.Agree.sameContent fun _ _ ↦ rfl
  have heffect :=
    ((sound_of_reaches hreaches).step (fun t call s _ _ ↦ safe t call s) hstep).2
  generalize hx : (c.rows, c.history) = x at heffect
  generalize hy : (c'.rows, c'.history) = y at heffect
  cases heffect with
  | refl =>
    have hrows := (Prod.mk.inj (hx.trans hy.symm)).1
    exact absurd (hrows ▸ hsame) hchanged
  | single hsingle =>
    cases hsingle with
    | part _ hguar =>
      obtain ⟨hrows, -⟩ := Prod.mk.inj hx
      obtain ⟨hrows', -⟩ := Prod.mk.inj hy
      rw [hrows, hrows'] at hchanged
      rcases hguar with hnothing | ⟨-, o, hnone, -⟩
      · rw [hnothing] at hchanged
        exact absurd hsame hchanged
      · cases hnone
    | @commit t call s w outcome history _ hguar =>
      obtain ⟨hrows, hhistory⟩ := Prod.mk.inj hx
      obtain ⟨hrows', hhistory'⟩ := Prod.mk.inj hy
      rw [hrows, hrows'] at hchanged
      rcases hguar with hnothing | ⟨hreplaces, o, ho, hok⟩
      · rw [hnothing] at hchanged
        exact absurd hsame hchanged
      · obtain rfl := Option.some.inj ho
        refine ⟨t, call, outcome, hhistory' ▸ hhistory ▸ rfl, hok, ?_, hrows ▸ hreplaces.overwrites⟩
        by_contra hother
        refine hchanged (Resource.Agree.sameContent fun k hk ↦
          (hreplaces.others k fun howner ↦ ?_).symm)
        rcases hk with hr | hnone
        · exact hother (Option.some.inj (howner.symm.trans hr))
        · exact absurd (howner.symm.trans hnone) (by simp)
    | refuse =>
      obtain ⟨hrows, -⟩ := Prod.mk.inj hx
      obtain ⟨hrows', -⟩ := Prod.mk.inj hy
      rw [hrows, hrows'] at hchanged
      exact absurd hsame hchanged

/-- A request that carries one tag, and changes its resource, overwrites what has that tag. -/
theorem tag_of_change {call : Call} {tag : Utf16}
    (hreaches : Reaches .free (Config.start rows) c) (hstep : Step .free c c')
    (hanswered : AnsweredBy c c' call) (hcarries : call.Carries tag) (hresource : call.resource = r)
    (hchanged : ¬r.SameContent c.rows c'.rows) :
    ∃ record, r.Shows P.uuids c.rows record ∧ r.entityTag P.sha record = tag := by
  obtain ⟨t, call', outcome, hhistory, -, -, hoverwrites⟩ :=
    overwrites_of_step hreaches hstep hchanged
  obtain ⟨t', result, hhistory'⟩ := hanswered
  obtain ⟨hcall, -⟩ := List.cons.inj (hhistory.symm.trans hhistory')
  obtain ⟨-, rfl, -⟩ := Answered.mk.inj hcall
  obtain ⟨header, hheader, honly⟩ := hcarries
  rcases hoverwrites with ⟨record, hshows, hok⟩ | ⟨scope, -, -, hnone⟩
  · obtain ⟨header', hheader', -, hmember⟩ := requiredPrecondition_eq_ok_iff.mp hok
    obtain rfl := Option.some.inj (hheader.symm.trans hheader')
    exact ⟨record, hresource ▸ hshows, hresource ▸ honly _ hmember⟩
  · rw [hheader] at hnone
    cases hnone

variable (P rows) in
/-- In every run of wholesale replacements, a resource is changed only by the commit of a
request on it whose header names the tag of what is overwritten, or has none where there is no
draft; of the requests that carry one tag and change the resource, the second is committed when
what the first overwrote is back; and two contents of one tag are the same. -/
theorem replacements_name_what_they_overwrite :
    (∀ c c' r, Reaches .free (Config.start rows : Config (replacements P)) c → Step .free c c' →
      ¬r.SameContent c.rows c'.rows →
        ∃ t call outcome, c'.history = ⟨t, call, .ok outcome⟩ :: c.history ∧
          outcome.isOk = true ∧ call.resource = r ∧
          (∀ record, r.Shows P.uuids c.rows record → ∃ header, call.ifMatch = some header ∧
            wildcard ∉ members header ∧ r.entityTag P.sha record ∈ members header) ∧
          ((∀ record, ¬r.Shows P.uuids c.rows record) → call.ifMatch = none)) ∧
      (∀ c₁ c₁' c₂ c₂' call₁ call₂ r tag,
        Reaches .free (Config.start rows : Config (replacements P)) c₁ → Step .free c₁ c₁' →
        Reaches .free c₁' c₂ → Step .free c₂ c₂' →
        AnsweredBy c₁ c₁' call₁ → AnsweredBy c₂ c₂' call₂ →
        call₁.resource = r → call₂.resource = r → call₁.Carries tag → call₂.Carries tag →
        ¬r.SameContent c₁.rows c₁'.rows → ¬r.SameContent c₂.rows c₂'.rows →
          r.SameContent c₁.rows c₂.rows) ∧
      ∀ r s s' record record', Resource.Shows P.uuids r s record → r.Shows P.uuids s' record' →
        ¬r.SameContent s s' → r.entityTag P.sha record ≠ r.entityTag P.sha record' := by
  refine ⟨?_, ?_, fun r s s' record record' hshows hshows' hdiffer htag ↦
    hdiffer (Resource.sameContent_of_tag hshows hshows' htag)⟩
  · intro c c' r hreaches hstep hchanged
    obtain ⟨t, call, outcome, hhistory, hok, rfl, hoverwrites⟩ :=
      overwrites_of_step hreaches hstep hchanged
    refine ⟨t, call, outcome, hhistory, hok, rfl, fun record hshows ↦ ?_, fun hnothing ↦ ?_⟩
    · rcases hoverwrites with ⟨record', hshows', hprecondition⟩ | ⟨scope, hresource, hdraft, -⟩
      · obtain rfl := hshows.unique hshows'
        exact requiredPrecondition_eq_ok_iff.mp hprecondition
      · rw [hresource] at hshows
        exact absurd (hdraft.symm.trans hshows) (by simp)
    · rcases hoverwrites with ⟨record', hshows', -⟩ | ⟨-, -, -, hnone⟩
      · exact absurd hshows' (hnothing record')
      · exact hnone
  · intro c₁ c₁' c₂ c₂' call₁ call₂ r tag hreaches hstep₁ hlater hstep₂ hanswered₁ hanswered₂
      hr₁ hr₂ hcarries₁ hcarries₂ hchanged₁ hchanged₂
    have hreaches₂ := (hreaches.tail hstep₁).trans hlater
    obtain ⟨record₁, hshows₁, htag₁⟩ :=
      tag_of_change hreaches hstep₁ hanswered₁ hcarries₁ hr₁ hchanged₁
    obtain ⟨record₂, hshows₂, htag₂⟩ :=
      tag_of_change hreaches₂ hstep₂ hanswered₂ hcarries₂ hr₂ hchanged₂
    exact Resource.sameContent_of_tag hshows₁ hshows₂ (htag₁.trans htag₂.symm)

/-- Answers to the statements of a draft. -/
def draftOracle : Oracle database where
  answer
    | .lockScope _, _ | .updateDraft .., _ => some ()
    | .lockedDraft scope, s | .draft scope, s => some (Rows.draft s scope)
    | .holdAssets _, _ => some false
    | _, _ => none
  reads
    | .draft _ | .holdAssets _ => true
    | _ => false
  right := by
    intro op s a h
    cases op <;> first | exact (Option.some.inj h).symm | trivial
  effect_of_reads := by
    intro op s h
    cases op <;> first | rfl | simp at h

def plainPlatform : Platform where
  sha := ⟨id, Function.injective_id⟩
  uuids := ⟨fun id ↦ List.replicate id 0x30, fun text ↦ some text.length, by simp⟩
  flowRefusal := fun _ ↦ none
  parseThemeBody := some

/-- A theme of one mode. -/
def themeOf (mode : String) : Record := .object [(ofAscii "mode", .string (ofAscii mode))]

def darkDraft : Rows
  | ⟨.themeDrafts, none⟩ => some (themeOf "dark")
  | _ => none

/-- A request that names the tag of the draft there is. -/
def lighten : Call :=
  .saveDraft ⟨none, themeOf "light", some (quotedTag (draftEtag plainPlatform.sha (themeOf "dark")))⟩

/-- The draft that is overwritten has the tag that the request names. -/
theorem replacements_name_what_they_overwrite_lightened :
    ∃ c c' : Config (replacements plainPlatform), Reaches .free (.start darkDraft) c ∧
      Step .free c c' ∧ Rows.draft c.rows none = some (themeOf "dark") ∧
      Rows.draft c'.rows none = some (themeOf "light") ∧
      ∃ header, lighten.ifMatch = some header ∧
        (Resource.themeDraft none).entityTag plainPlatform.sha (themeOf "dark") ∈
          members header := by
  have hplay : ((Schedule.performAll .free draftOracle
      (Schedule.start (darkDraft : Store (replacements plainPlatform).db))
        (.begin lighten :: Schedule.runs (replacements plainPlatform) 0 6)).map fun m ↦
          (Rows.draft m.config.rows none, (m.config.running 0).map fun r ↦
            (r.call, r.program, r.pending ⟨.themeDrafts, none⟩))) =
      some (some (themeOf "dark"), some (lighten, .done (.ok (themeOf "light")
        (quotedTag (draftEtag plainPlatform.sha (themeOf "light")))),
        some (some (themeOf "light")))) := by rfl
  obtain ⟨m, hm, hat⟩ := Option.map_eq_some_iff.mp hplay
  obtain ⟨hdraft, hrunning⟩ := Prod.mk.inj hat
  obtain ⟨⟨call, program, w⟩, hrunning, hleft⟩ := Option.map_eq_some_iff.mp hrunning
  simp only [Prod.mk.injEq] at hleft
  obtain ⟨rfl, rfl, hw⟩ := hleft
  have hstep := Step.commit (d := .free) hrunning trivial
  have hafter : Rows.draft (w.laidOver m.config.rows) none = some (themeOf "light") :=
    @Writes.laidOver_of_some database _ ⟨.themeDrafts, none⟩ _ hw _
  have hchanged : ¬(Resource.themeDraft none).SameContent m.config.rows
      (w.laidOver m.config.rows) := by
    intro hsame
    have htheme := hdraft.symm.trans (hsame.trans hafter)
    simp [themeOf, ofAscii] at htheme
  obtain ⟨t, call, outcome, hhistory, -, -, hnames, -⟩ :=
    (replacements_name_what_they_overwrite plainPlatform darkDraft).1 _ _ (.themeDraft none)
      (Schedule.reaches hm) hstep hchanged
  obtain ⟨-, rfl, -⟩ := Answered.mk.inj (List.cons.inj hhistory).1
  obtain ⟨header, hheader, -, hmem⟩ := hnames _ hdraft
  exact ⟨_, _, Schedule.reaches hm, hstep, hdraft, hafter, header, hheader, hmem⟩

end Runs

end Odudu.ProtocolAdmin.Replacements
