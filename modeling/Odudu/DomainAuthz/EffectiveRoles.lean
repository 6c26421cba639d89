import Odudu.Graphs.RecursiveUnion
import Odudu.Listings.Keyset

/-!
# Effective roles

The roles a subject holds: those assigned to it, those mapped to a group it belongs to or to an
ancestor of one, and every role nested in these (`repository/effective-roles.ts`, and
`ancestorsOf` of `repository/groups.ts`).  Every query here is a recursive one over the tables
of one tenant, which may nest roles in a cycle.

`mem_roleClosure_iff` says what is found in terms of the edges alone; `page_visits` that the
listing's pages are the whole of it.
-/

set_option autoImplicit false

namespace Odudu.DomainAuthz

open Graphs Listings Relation

abbrev RoleId := ℕ

abbrev GroupId := ℕ

abbrev SubjectId := ℕ

/-- A row of `clients`: its key, and the `client_id` it is known by. -/
structure Client where
  id : ℕ
  clientId : String

/-- A row of `roles`, of a client or of the tenant itself. -/
structure Role where
  id : RoleId
  name : String
  clientId : Option ℕ

structure Group where
  id : GroupId
  parentId : Option GroupId
  deriving DecidableEq

/-- The tables of a tenant, with their keys. -/
structure Tables where
  clients : List Client
  roles : List Role
  /-- A parent role, and a role it grants. -/
  roleComposites : List (RoleId × RoleId)
  groups : List Group
  groupRoles : List (GroupId × RoleId)
  subjectRoles : List (SubjectId × RoleId)
  subjectGroups : List (SubjectId × GroupId)
  clients_id : (clients.map Client.id).Nodup
  roles_id : (roles.map Role.id).Nodup
  groups_id : (groups.map Group.id).Nodup
  composites_fk : ∀ edge ∈ roleComposites,
    edge.1 ∈ roles.map Role.id ∧ edge.2 ∈ roles.map Role.id
  groups_fk : ∀ group ∈ groups, ∀ parentId ∈ group.parentId, parentId ∈ groups.map Group.id
  groupRoles_fk : ∀ edge ∈ groupRoles,
    edge.1 ∈ groups.map Group.id ∧ edge.2 ∈ roles.map Role.id
  subjectRoles_fk : ∀ edge ∈ subjectRoles, edge.2 ∈ roles.map Role.id
  subjectGroups_fk : ∀ edge ∈ subjectGroups, edge.2 ∈ groups.map Group.id

/-- What is read of a role that is held. -/
structure EffectiveRole where
  roleId : RoleId
  name : String
  clientKey : Option String

/-- The second of each pair with this first. -/
def lookupAll {α β : Type} [DecidableEq α] (pairs : List (α × β)) (key : α) : List β :=
  (pairs.filter fun pair ↦ decide (pair.1 = key)).map Prod.snd

theorem mem_lookupAll {α β : Type} [DecidableEq α] {pairs : List (α × β)} {key : α} {value : β} :
    value ∈ lookupAll pairs key ↔ (key, value) ∈ pairs := by
  simp only [lookupAll, List.mem_map, List.mem_filter, decide_eq_true_eq]
  constructor
  · intro ⟨⟨key', value'⟩, ⟨hmem, hkey⟩, hvalue⟩
    obtain rfl : key' = key := hkey
    obtain rfl : value' = value := hvalue
    exact hmem
  · intro hmem
    exact ⟨(key, value), ⟨hmem, rfl⟩, rfl⟩

namespace Tables

variable (t : Tables)

def groupById (id : GroupId) : Option Group := t.groups.find? fun group ↦ decide (group.id = id)

def roleById (id : RoleId) : Option Role := t.roles.find? fun role ↦ decide (role.id = id)

def clientById (id : ℕ) : Option Client := t.clients.find? fun client ↦ decide (client.id = id)

def roleIds : List RoleId := t.roles.map Role.id

/-- The roles nested directly in a role. -/
def childrenOf (roleId : RoleId) : List RoleId := lookupAll t.roleComposites roleId

/-- The group above a group. -/
def parentOf (group : Group) : List Group := (group.parentId.bind t.groupById).toList

/-- `role` as it is read with its client. -/
def effectiveRole (role : Role) : EffectiveRole where
  roleId := role.id
  name := role.name
  clientKey := (role.clientId.bind t.clientById).map Client.clientId

/-- The rows of these roles. -/
def readRoles (roleIds : List RoleId) : List EffectiveRole :=
  roleIds.filterMap fun roleId ↦ (t.roleById roleId).map t.effectiveRole

/-! ### The queries -/

/-- The groups a subject is in. -/
def memberships (subjectId : SubjectId) : List Group :=
  (lookupAll t.subjectGroups subjectId).filterMap t.groupById

/-- `group_closure`. -/
def groupClosure (subjectId : SubjectId) : RecursiveQuery Group where
  rows := t.groups
  seed := t.memberships subjectId
  step := t.parentOf

/-- `seed_roles`. -/
def seedRoles (subjectId : SubjectId) : List RoleId :=
  (lookupAll t.subjectRoles subjectId ++
    (t.groupClosure subjectId).result.flatMap fun group ↦ lookupAll t.groupRoles group.id).dedup

/-- `role_closure`. -/
def roleClosure (subjectId : SubjectId) : RecursiveQuery RoleId where
  rows := t.roleIds
  seed := t.seedRoles subjectId
  step := t.childrenOf

/-- `effectiveRoles`. -/
def effectiveRoles (subjectId : SubjectId) : List EffectiveRole :=
  t.readRoles (t.roleClosure subjectId).result

/-- Role ids in order. -/
def inOrder (roleIds : List RoleId) : List RoleId := roleIds.mergeSort fun a b ↦ decide (a ≤ b)

/-- `effectiveRolePage`. -/
def effectiveRolePage (subjectId : SubjectId) (after : Option RoleId) (limit : ℕ) :
    List EffectiveRole :=
  let resumed := (t.roleClosure subjectId).result.filter fun roleId ↦
    after.all fun after ↦ decide (after < roleId)
  t.readRoles ((inOrder resumed).take limit)

/-- The pages of `listEffectiveRoles`: one role more is read than a page shows, and the page
ends with a cursor where there was one. -/
def listEffectiveRoles (subjectId : SubjectId) (limit : ℕ) (cursor : Option RoleId) :
    Option (List EffectiveRole × Option RoleId) :=
  some (cut limit EffectiveRole.roleId (t.effectiveRolePage subjectId cursor (limit + 1)))

/-- The first rows of `rolesReachableFrom`: the ids of roles that are there. -/
def existingRoles (roleIds : List RoleId) : List RoleId :=
  (t.roles.filter fun role ↦ decide (role.id ∈ roleIds)).map Role.id

/-- The `closure` of `rolesReachableFrom`. -/
def reachableClosure (roleIds : List RoleId) : RecursiveQuery RoleId where
  rows := t.roleIds
  seed := t.existingRoles roleIds
  step := t.childrenOf

/-- `rolesReachableFrom`. -/
def rolesReachableFrom (roleIds : List RoleId) : List EffectiveRole :=
  t.readRoles (t.reachableClosure roleIds).result

/-- The first rows of `ancestorsOf`. -/
def existingGroups (groupIds : List GroupId) : List Group :=
  t.groups.filter fun group ↦ decide (group.id ∈ groupIds)

/-- The `ancestors` of `ancestorsOf`. -/
def ancestors (groupIds : List GroupId) : RecursiveQuery Group where
  rows := t.groups
  seed := t.existingGroups groupIds
  step := t.parentOf

/-- `ancestorsOf`, the groups themselves included. -/
def ancestorsOf (groupIds : List GroupId) : List GroupId :=
  (t.ancestors groupIds).result.map Group.id

/-! ### Edges -/

/-- A role grants another directly. -/
def Nests (parent child : RoleId) : Prop := (parent, child) ∈ t.roleComposites

/-- A group lies directly under another. -/
def Under (group parent : GroupId) : Prop :=
  ∃ row ∈ t.groups, row.id = group ∧ row.parentId = some parent

/-- A role is assigned to a subject, by itself or through a group or an ancestor of one. -/
def Assigned (subjectId : SubjectId) (roleId : RoleId) : Prop :=
  (subjectId, roleId) ∈ t.subjectRoles ∨
    ∃ groupId ancestor, (subjectId, groupId) ∈ t.subjectGroups ∧
      ReflTransGen t.Under groupId ancestor ∧ (ancestor, roleId) ∈ t.groupRoles

/-- A subject holds a role: it is assigned, or nested in one that is. -/
def Holds (subjectId : SubjectId) (roleId : RoleId) : Prop :=
  ∃ assigned, t.Assigned subjectId assigned ∧ ReflTransGen t.Nests assigned roleId

section Rows

variable {t}

theorem find?_key {α β : Type} [DecidableEq β] {rows : List α} {key : α → β}
    (hkeys : (rows.map key).Nodup) {id : β} {row : α} :
    rows.find? (fun row ↦ decide (key row = id)) = some row ↔ row ∈ rows ∧ key row = id := by
  constructor
  · intro h
    exact ⟨List.mem_of_find?_eq_some h, by simpa using List.find?_some h⟩
  · intro ⟨hmem, hid⟩
    cases hfind : rows.find? fun row ↦ decide (key row = id) with
    | none => exact absurd (decide_eq_true hid) (List.find?_eq_none.mp hfind row hmem)
    | some found =>
      have hfound : key found = id := by simpa using List.find?_some hfind
      have hin := List.mem_of_find?_eq_some hfind
      exact congrArg some (List.inj_on_of_nodup_map hkeys hin hmem (hfound.trans hid.symm))

theorem groupById_eq_some {id : GroupId} {group : Group} :
    t.groupById id = some group ↔ group ∈ t.groups ∧ group.id = id :=
  find?_key t.groups_id

theorem roleById_eq_some {id : RoleId} {role : Role} :
    t.roleById id = some role ↔ role ∈ t.roles ∧ role.id = id :=
  find?_key t.roles_id

theorem clientById_eq_some {id : ℕ} {client : Client} :
    t.clientById id = some client ↔ client ∈ t.clients ∧ client.id = id :=
  find?_key t.clients_id

theorem mem_parentOf {group parent : Group} :
    parent ∈ t.parentOf group ↔ group.parentId = some parent.id ∧ parent ∈ t.groups := by
  rw [parentOf, Option.mem_toList, Option.bind_eq_some_iff]
  constructor
  · intro ⟨id, hid, hparent⟩
    obtain ⟨hmem, rfl⟩ := groupById_eq_some.mp hparent
    exact ⟨hid, hmem⟩
  · intro ⟨hid, hmem⟩
    exact ⟨parent.id, hid, groupById_eq_some.mpr ⟨hmem, rfl⟩⟩

theorem exists_group {id : GroupId} (h : id ∈ t.groups.map Group.id) :
    ∃ group ∈ t.groups, group.id = id :=
  List.mem_map.mp h

/-- The rows above a group's row are those of its ancestors. -/
theorem leads_parentOf_iff {group ancestor : Group} (hgroup : group ∈ t.groups) :
    ReflTransGen (fun group parent ↦ parent ∈ t.parentOf group) group ancestor ↔
      ancestor ∈ t.groups ∧ ReflTransGen t.Under group.id ancestor.id := by
  constructor
  · intro hpath
    induction hpath with
    | refl => exact ⟨hgroup, .refl⟩
    | tail _ hlast ih =>
      obtain ⟨hparent, hmem⟩ := mem_parentOf.mp hlast
      exact ⟨hmem, ih.2.tail ⟨_, ih.1, rfl, hparent⟩⟩
  · intro ⟨hancestor, hpath⟩
    generalize hid : ancestor.id = id at hpath
    induction hpath generalizing ancestor with
    | refl => exact List.inj_on_of_nodup_map t.groups_id hgroup hancestor hid.symm ▸ .refl
    | tail _ hlast ih =>
      obtain ⟨row, hrow, hrowid, hparent⟩ := hlast
      refine (ih hrow hrowid).tail (mem_parentOf.mpr ⟨?_, hancestor⟩)
      rw [hid, hparent]

end Rows

/-! ### What the queries find -/

section Found

variable {t} {subjectId : SubjectId} {roleId : RoleId}

theorem within_groupClosure : (t.groupClosure subjectId).Within where
  seed := by
    intro group hgroup
    obtain ⟨id, -, hfound⟩ := List.mem_filterMap.mp hgroup
    exact (groupById_eq_some.mp hfound).1
  step := fun _ _ _ hparent ↦ (mem_parentOf.mp hparent).2

theorem mem_groupClosure_iff {group : Group} :
    group ∈ (t.groupClosure subjectId).result ↔ group ∈ t.groups ∧
      ∃ member, (subjectId, member) ∈ t.subjectGroups ∧ ReflTransGen t.Under member group.id := by
  rw [within_groupClosure.mem_result_iff]
  constructor
  · intro ⟨first, hfirst, hpath⟩
    obtain ⟨id, hid, hfound⟩ := List.mem_filterMap.mp hfirst
    obtain ⟨hmem, rfl⟩ := groupById_eq_some.mp hfound
    obtain ⟨hgroup, hunder⟩ := (leads_parentOf_iff hmem).mp hpath
    exact ⟨hgroup, first.id, mem_lookupAll.mp hid, hunder⟩
  · intro ⟨hgroup, member, hmember, hunder⟩
    obtain ⟨first, hfirst, rfl⟩ := exists_group (t.subjectGroups_fk _ hmember)
    refine ⟨first, List.mem_filterMap.mpr ⟨first.id, mem_lookupAll.mpr hmember, ?_⟩, ?_⟩
    · exact groupById_eq_some.mpr ⟨hfirst, rfl⟩
    · exact (leads_parentOf_iff hfirst).mpr ⟨hgroup, hunder⟩

theorem mem_seedRoles_iff : roleId ∈ t.seedRoles subjectId ↔ t.Assigned subjectId roleId := by
  rw [seedRoles, List.mem_dedup, List.mem_append, mem_lookupAll, List.mem_flatMap]
  refine or_congr Iff.rfl ?_
  constructor
  · intro ⟨group, hgroup, hrole⟩
    obtain ⟨-, member, hmember, hunder⟩ := mem_groupClosure_iff.mp hgroup
    exact ⟨member, group.id, hmember, hunder, mem_lookupAll.mp hrole⟩
  · intro ⟨member, ancestor, hmember, hunder, hrole⟩
    obtain ⟨group, hgroup, rfl⟩ := exists_group (t.groupRoles_fk _ hrole).1
    exact ⟨group, mem_groupClosure_iff.mpr ⟨hgroup, member, hmember, hunder⟩,
      mem_lookupAll.mpr hrole⟩

theorem childrenOf_subset (roleId : RoleId) : ∀ child ∈ t.childrenOf roleId, child ∈ t.roleIds :=
  fun _ hchild ↦ (t.composites_fk _ (mem_lookupAll.mp hchild)).2

theorem within_roleClosure : (t.roleClosure subjectId).Within where
  seed := by
    intro roleId hrole
    rcases mem_seedRoles_iff.mp hrole with hdirect | ⟨_, _, _, _, hmapped⟩
    · exact t.subjectRoles_fk _ hdirect
    · exact (t.groupRoles_fk _ hmapped).2
  step := fun roleId _ ↦ childrenOf_subset roleId

theorem nests_eq : (fun parent child ↦ child ∈ t.childrenOf parent) = t.Nests := by
  funext parent child
  exact propext mem_lookupAll

theorem mem_roleClosure_iff :
    roleId ∈ (t.roleClosure subjectId).result ↔ t.Holds subjectId roleId := by
  have hleads : (t.roleClosure subjectId).Leads = t.Nests := nests_eq
  rw [within_roleClosure.mem_result_iff, hleads]
  exact exists_congr fun _ ↦ and_congr_left fun _ ↦ mem_seedRoles_iff

variable {roleIds : List RoleId}

theorem mem_readRoles_iff {read : EffectiveRole} :
    read ∈ t.readRoles roleIds ↔
      ∃ role ∈ t.roles, role.id ∈ roleIds ∧ t.effectiveRole role = read := by
  rw [readRoles, List.mem_filterMap]
  constructor
  · intro ⟨id, hid, hfound⟩
    obtain ⟨role, hrole, hread⟩ := Option.map_eq_some_iff.mp hfound
    obtain ⟨hmem, rfl⟩ := roleById_eq_some.mp hrole
    exact ⟨role, hmem, hid, hread⟩
  · intro ⟨role, hmem, hid, hread⟩
    refine ⟨role.id, hid, Option.map_eq_some_iff.mpr ⟨role, ?_, hread⟩⟩
    exact roleById_eq_some.mpr ⟨hmem, rfl⟩

theorem readRoles_cons {id : RoleId} (h : id ∈ t.roleIds) :
    ∃ role, role.roleId = id ∧ ∀ ids, t.readRoles (id :: ids) = role :: t.readRoles ids := by
  obtain ⟨role, hrole, hid⟩ := List.mem_map.mp h
  have hfound : t.roleById id = some role := roleById_eq_some.mpr ⟨hrole, hid⟩
  refine ⟨t.effectiveRole role, hid, fun ids ↦ ?_⟩
  rw [readRoles, List.filterMap_cons_some (by rw [hfound]; rfl)]
  rfl

theorem map_readRoles (h : ∀ id ∈ roleIds, id ∈ t.roleIds) :
    (t.readRoles roleIds).map EffectiveRole.roleId = roleIds := by
  induction roleIds with
  | nil => rfl
  | cons id _ ih =>
    obtain ⟨role, hid, hread⟩ := readRoles_cons (h id List.mem_cons_self)
    rw [hread, List.map_cons, hid, ih fun id hid ↦ h id (List.mem_cons_of_mem _ hid)]

end Found

/-! ### The pages of a listing -/

section Pages

variable {t} {ids : List RoleId} {subjectId : SubjectId} {limit : ℕ}

/-- What roles are listed by, the least id first. -/
def listingKey (role : EffectiveRole) : ℕᵒᵈ := OrderDual.toDual role.roleId

theorem readRoles_take (h : ∀ id ∈ ids, id ∈ t.roleIds) (n : ℕ) :
    t.readRoles (ids.take n) = (t.readRoles ids).take n := by
  induction ids generalizing n with
  | nil => simp [readRoles]
  | cons id _ ih =>
    cases n with
    | zero => simp [readRoles]
    | succ n =>
      obtain ⟨role, -, hread⟩ := readRoles_cons (h id List.mem_cons_self)
      rw [List.take_succ_cons, hread, hread, List.take_succ_cons,
        ih (fun id hid ↦ h id (List.mem_cons_of_mem _ hid)) n]

theorem readRoles_filter (h : ∀ id ∈ ids, id ∈ t.roleIds) (p : RoleId → Bool) :
    t.readRoles (ids.filter p) = (t.readRoles ids).filter fun role ↦ p role.roleId := by
  induction ids with
  | nil => rfl
  | cons id _ ih =>
    obtain ⟨role, hid, hread⟩ := readRoles_cons (h id List.mem_cons_self)
    have hrest := ih fun id hid ↦ h id (List.mem_cons_of_mem _ hid)
    cases hp : p id with
    | true =>
      rw [List.filter_cons_of_pos hp, hread, hread, List.filter_cons_of_pos (by rw [hid, hp]),
        hrest]
    | false =>
      rw [List.filter_cons_of_neg (by simp [hp]), hread,
        List.filter_cons_of_neg (by simp [hid, hp]), hrest]

theorem inOrder_perm (ids : List RoleId) : (inOrder ids).Perm ids := List.mergeSort_perm ids _

theorem pairwise_inOrder (hnodup : ids.Nodup) : (inOrder ids).Pairwise (· < ·) := by
  have hle : (inOrder ids).Pairwise (· ≤ ·) := by
    refine (List.pairwise_mergeSort ?_ ?_ ids).imp fun h ↦ of_decide_eq_true h
    · intro a b c hab hbc
      exact decide_eq_true ((of_decide_eq_true hab).trans (of_decide_eq_true hbc))
    · intro a b
      simpa using Nat.le_total a b
  have hne : (inOrder ids).Pairwise (· ≠ ·) := (inOrder_perm ids).nodup_iff.mpr hnodup
  exact (hle.and hne).imp fun ⟨hle, hne⟩ ↦ Nat.lt_of_le_of_ne hle hne

/-- Roles read in order are the listing of the roles read. -/
theorem readRoles_inOrder (hnodup : ids.Nodup) (h : ∀ id ∈ ids, id ∈ t.roleIds) :
    t.readRoles (inOrder ids) = descending listingKey (t.readRoles ids) := by
  have hin : ∀ id ∈ inOrder ids, id ∈ t.roleIds := fun id hid ↦
    h id ((inOrder_perm ids).mem_iff.mp hid)
  have hkeys : ((t.readRoles ids).map listingKey).Nodup := by
    have hids : ((t.readRoles ids).map EffectiveRole.roleId).Nodup := by rwa [map_readRoles h]
    exact hids
  have hdescends : Descends listingKey (t.readRoles (inOrder ids)) := by
    have hsorted := pairwise_inOrder hnodup
    rw [← map_readRoles hin] at hsorted
    exact List.pairwise_map.mp hsorted
  refine hdescends.eq_of_perm (descending_descends hkeys) ?_
  exact ((inOrder_perm ids).filterMap _).trans (descending_perm _).symm

theorem roleClosure_subset : ∀ id ∈ (t.roleClosure subjectId).result, id ∈ t.roleIds :=
  fun _ hid ↦ within_roleClosure.found_subset _ hid

/-- A page after a role is cut from the roles that follow it. -/
theorem effectiveRolePage_eq (after : Option RoleId) (n : ℕ) :
    t.effectiveRolePage subjectId after n =
      ((descending listingKey (t.effectiveRoles subjectId)).filter fun role ↦
        after.all fun after ↦ decide (after < role.roleId)).take n := by
  have hnodup : (t.roleClosure subjectId).result.Nodup := RecursiveQuery.nodup_result
  have hin : ∀ id ∈ (t.roleClosure subjectId).result.filter (fun roleId ↦
      after.all fun after ↦ decide (after < roleId)), id ∈ t.roleIds := fun id hid ↦
    roleClosure_subset id (List.mem_of_mem_filter hid)
  have hkeys : ((t.effectiveRoles subjectId).map listingKey).Nodup := by
    have hids : ((t.effectiveRoles subjectId).map EffectiveRole.roleId).Nodup := by
      rwa [effectiveRoles, map_readRoles roleClosure_subset]
    exact hids
  rw [effectiveRolePage, readRoles_take, readRoles_inOrder (hnodup.filter _) hin,
    readRoles_filter roleClosure_subset, ← descending_filter hkeys]
  · rfl
  · exact fun id hid ↦ hin id ((inOrder_perm _).mem_iff.mp hid)

/-- The pages of a listing, one after another, are the roles a subject holds, each once. -/
theorem pages_visitOnce (subjectId : SubjectId) (hlimit : 0 < limit) :
    VisitsOnce listingKey (t.listEffectiveRoles subjectId limit) (t.effectiveRoles subjectId) := by
  have hkeys : ((t.effectiveRoles subjectId).map listingKey).Nodup := by
    have hids : ((t.effectiveRoles subjectId).map EffectiveRole.roleId).Nodup := by
      rw [effectiveRoles, map_readRoles roleClosure_subset]
      exact RecursiveQuery.nodup_result
    exact hids
  have hlister : Lister listingKey limit id EffectiveRole.roleId (t.effectiveRoles subjectId)
      (t.listEffectiveRoles subjectId limit) := by
    constructor
    · rw [listEffectiveRoles, effectiveRolePage_eq, cut_take]
      simp
    · intro role
      rw [listEffectiveRoles, effectiveRolePage_eq, cut_take]
      rfl
  exact hlister.visitsOnce hlimit hkeys

end Pages

end Tables

end Odudu.DomainAuthz
