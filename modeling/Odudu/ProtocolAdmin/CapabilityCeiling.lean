import Odudu.DomainAuthz.EffectiveRoles
import Mathlib.Data.List.ProdSigma

/-!
# The capability ceiling

What a role, a group or a subject carries of the admin capabilities, walked downward from the
subject and upward from the capability (`service/capability-ceiling.ts`).

`walks_agree` is that the walks find the same: over any tables of a tenant, whether or not
roles nest in a cycle, every query comes to an end, and the upward ones name exactly the
subjects, the roles and the groups that the downward ones find a capability for.
-/

set_option autoImplicit false

namespace Odudu.ProtocolAdmin

open Graphs Listings DomainAuthz Relation

def ADMIN_CLIENT_ID : String := "odudu-admin"

def TENANT_CAPABILITIES : List String :=
  ["view-users", "manage-users", "manage-clients", "manage-tenant", "manage-keys",
    "manage-sessions", "view-audit", "view-domains", "manage-domains"]

def MANAGE_TENANTS : String := "manage-tenants"

/-- The vocabulary on the wire. -/
def ADMIN_CAPABILITIES : List String :=
  ["view-users", "manage-users", "manage-clients", "manage-tenant", "manage-keys",
    "manage-sessions", "view-audit", "view-domains", "manage-domains", "manage-tenants"]

def CAPABILITY_NAMES : List String := TENANT_CAPABILITIES ++ [MANAGE_TENANTS]

/-- What is requested and not held. -/
def overreach (requested held : List String) : List String :=
  requested.filter fun capability ↦ decide (capability ∉ held)

end Odudu.ProtocolAdmin

namespace Odudu.DomainAuthz.Tables

open Graphs Listings ProtocolAdmin Relation

variable (t : Tables)

/-! ### Downward -/

/-- The names of the admin client's roles among these. -/
def adminNames (roles : List EffectiveRole) : List String :=
  (roles.filter fun role ↦ decide (role.clientKey = some ADMIN_CLIENT_ID)).map EffectiveRole.name

def capabilitiesReachableFrom (roleIds : List RoleId) : List String :=
  (adminNames (t.rolesReachableFrom roleIds)).dedup

def capabilitiesOfGroupsAndAncestors (groupIds : List GroupId) : List String :=
  t.capabilitiesReachableFrom ((t.ancestorsOf groupIds).flatMap (lookupAll t.groupRoles))

def targetOverreach (subjectId : SubjectId) (held : List String) : List String :=
  overreach (adminNames ((t.effectiveRoles subjectId).filter fun role ↦
    decide (role.name ∈ CAPABILITY_NAMES))).dedup held

/-! ### Upward -/

/-- The first of each pair with this second. -/
def sourcesOf {α : Type} (pairs : List (α × ℕ)) (target : ℕ) : List α :=
  (pairs.filter fun pair ↦ decide (pair.2 = target)).map Prod.fst

/-- The roles that nest a role directly. -/
def parentsOf (roleId : RoleId) : List RoleId := sourcesOf t.roleComposites roleId

/-- The groups directly beneath a group. -/
def beneath (groupId : GroupId) : List GroupId :=
  (t.groups.filter fun group ↦ decide (group.parentId = some groupId)).map Group.id

/-- The admin client's roles of these names. -/
def adminRoles (names : List String) : List Role :=
  t.roles.filter fun role ↦ decide (role.name ∈ names) &&
    role.clientId.any fun clientId ↦ t.clients.any fun client ↦
      decide (client.id = clientId ∧ client.clientId = ADMIN_CLIENT_ID)

/-- `granting`: the roles that reach the admin client's role of a name. -/
def granting (name : String) : RecursiveQuery RoleId where
  rows := t.roleIds
  seed := (t.adminRoles [name]).map Role.id
  step := t.parentsOf

/-- `granting_groups`: the groups that map one of those, and every group beneath. -/
def grantingGroups (name : String) : RecursiveQuery GroupId where
  rows := t.groups.map Group.id
  seed := (t.granting name).result.flatMap (sourcesOf t.groupRoles)
  step := t.beneath

def holdersOf (name : String) : List SubjectId :=
  ((t.granting name).result.flatMap (sourcesOf t.subjectRoles) ++
    (t.grantingGroups name).result.flatMap (sourcesOf t.subjectGroups)).dedup

/-- Nobody is named where every capability is held. -/
def subjectsBeyond (held : List String) : Option (List SubjectId) :=
  let missing := CAPABILITY_NAMES.filter fun name ↦ decide (name ∉ held)
  if missing = [] then none else some (missing.flatMap t.holdersOf).dedup

/-- `grantingCte`: the roles that reach a capability, with the capability. -/
def grantingCte : RecursiveQuery (RoleId × String) where
  rows := t.roleIds ×ˢ ADMIN_CAPABILITIES
  seed := (t.adminRoles ADMIN_CAPABILITIES).map fun role ↦ (role.id, role.name)
  step row := (t.parentsOf row.1).map fun parent ↦ (parent, row.2)

/-- Each root's capabilities in the vocabulary's own order, every root answered. -/
def reachByRoot (roots : List ℕ) (rows : List (ℕ × String)) : List (ℕ × List String) :=
  roots.map fun root ↦ (root, ADMIN_CAPABILITIES.filter fun name ↦ decide ((root, name) ∈ rows))

def adminReachOfRoles (roleIds : List RoleId) : List (RoleId × List String) :=
  reachByRoot roleIds (t.grantingCte.result.filter fun row ↦ decide (row.1 ∈ roleIds))

/-- `chain`: the groups above each root, with the root. -/
def chain (groupIds : List GroupId) : RecursiveQuery (GroupId × Group) where
  rows := groupIds ×ˢ t.groups
  seed := (t.existingGroups groupIds).map fun group ↦ (group.id, group)
  step row := (t.parentOf row.2).map fun parent ↦ (row.1, parent)

def adminReachOfGroups (groupIds : List GroupId) : List (GroupId × List String) :=
  reachByRoot groupIds <| (t.chain groupIds).result.flatMap fun row ↦
    (t.grantingCte.result.filter fun granted ↦ decide ((row.2.id, granted.1) ∈ t.groupRoles)).map
      fun granted ↦ (row.1, granted.2)

/-! ### What each walk finds -/

/-- A role of the admin client with this name. -/
def IsAdminRole (role : Role) (name : String) : Prop :=
  role ∈ t.roles ∧ (t.effectiveRole role).clientKey = some ADMIN_CLIENT_ID ∧ role.name = name

/-- A role is the admin client's role of this name, or one is nested in it. -/
def Carries (roleId : RoleId) (name : String) : Prop :=
  ∃ role, t.IsAdminRole role name ∧ ReflTransGen t.Nests roleId role.id

section Walks

variable {t} {subjectId : SubjectId} {roleId : RoleId} {groupId : GroupId} {name : String}
  {names : List String}

theorem mem_sourcesOf {α : Type} {pairs : List (α × ℕ)} {target : ℕ} {source : α} :
    source ∈ sourcesOf pairs target ↔ (source, target) ∈ pairs := by
  simp only [sourcesOf, List.mem_map, List.mem_filter, decide_eq_true_eq]
  constructor
  · intro ⟨⟨source', target'⟩, ⟨hmem, htarget⟩, hsource⟩
    obtain rfl : target' = target := htarget
    obtain rfl : source' = source := hsource
    exact hmem
  · intro hmem
    exact ⟨(source, target), ⟨hmem, rfl⟩, rfl⟩

theorem mem_adminNames {roles : List EffectiveRole} :
    name ∈ adminNames roles ↔
      ∃ role ∈ roles, role.clientKey = some ADMIN_CLIENT_ID ∧ role.name = name := by
  simp only [adminNames, List.mem_map, List.mem_filter, decide_eq_true_eq, and_assoc]

theorem clientKey_eq_some {role : Role} {clientId : String} :
    (t.effectiveRole role).clientKey = some clientId ↔
      ∃ id, role.clientId = some id ∧
        ∃ client ∈ t.clients, client.id = id ∧ client.clientId = clientId := by
  rw [effectiveRole, Option.map_eq_some_iff]
  constructor
  · intro ⟨client, hfound, hclient⟩
    obtain ⟨id, hid, hclientById⟩ := Option.bind_eq_some_iff.mp hfound
    obtain ⟨hmem, hclientId⟩ := clientById_eq_some.mp hclientById
    exact ⟨id, hid, client, hmem, hclientId, hclient⟩
  · intro ⟨id, hid, client, hmem, hclientId, hclient⟩
    refine ⟨client, Option.bind_eq_some_iff.mpr ⟨id, hid, ?_⟩, hclient⟩
    exact clientById_eq_some.mpr ⟨hmem, hclientId⟩

theorem mem_adminRoles {role : Role} :
    role ∈ t.adminRoles names ↔ role.name ∈ names ∧ t.IsAdminRole role role.name := by
  rw [adminRoles, List.mem_filter, IsAdminRole, clientKey_eq_some]
  simp only [Bool.and_eq_true, decide_eq_true_eq, Option.any_eq_true, List.any_eq_true]
  constructor
  · intro ⟨hrole, hname, id, hid, client, hmem, hclient⟩
    exact ⟨hname, hrole, ⟨id, hid, client, hmem, hclient⟩, trivial⟩
  · intro ⟨hname, hrole, ⟨id, hid, client, hmem, hclient⟩, _⟩
    exact ⟨hrole, hname, id, hid, client, hmem, hclient⟩

theorem Carries.mem_roleIds (h : t.Carries roleId name) : roleId ∈ t.roleIds := by
  obtain ⟨role, ⟨hrole, -, -⟩, hpath⟩ := h
  rcases hpath.cases_head with rfl | ⟨child, hfirst, -⟩
  · exact List.mem_map_of_mem hrole
  · exact (t.composites_fk _ hfirst).1

theorem parentsOf_subset (roleId : RoleId) : ∀ parent ∈ t.parentsOf roleId, parent ∈ t.roleIds :=
  fun _ hparent ↦ (t.composites_fk _ (mem_sourcesOf.mp hparent)).1

theorem within_granting : (t.granting name).Within where
  seed := by
    intro roleId hrole
    obtain ⟨role, hmem, rfl⟩ := List.mem_map.mp hrole
    exact List.mem_map_of_mem (mem_adminRoles.mp hmem).2.1
  step := fun roleId _ ↦ parentsOf_subset roleId

theorem leads_granting : (t.granting name).Leads = Function.swap t.Nests := by
  funext child parent
  exact propext mem_sourcesOf

/-- Upward from a capability: the roles that carry it. -/
theorem mem_granting_iff : roleId ∈ (t.granting name).result ↔ t.Carries roleId name := by
  rw [within_granting.mem_result_iff, leads_granting]
  constructor
  · intro ⟨first, hfirst, hpath⟩
    obtain ⟨role, hrole, rfl⟩ := List.mem_map.mp hfirst
    obtain ⟨hname, hadmin⟩ := mem_adminRoles.mp hrole
    obtain rfl : role.name = name := by simpa using hname
    exact ⟨role, hadmin, reflTransGen_swap.mp hpath⟩
  · intro ⟨role, hadmin, hpath⟩
    obtain rfl := hadmin.2.2
    refine ⟨role.id, List.mem_map_of_mem (mem_adminRoles.mpr ⟨?_, hadmin⟩), ?_⟩
    · exact List.mem_singleton_self _
    · exact reflTransGen_swap.mpr hpath

theorem mem_beneath {parent : GroupId} : groupId ∈ t.beneath parent ↔ t.Under groupId parent := by
  simp only [beneath, List.mem_map, List.mem_filter, decide_eq_true_eq, Under]
  constructor
  · intro ⟨row, ⟨hrow, hparent⟩, hid⟩
    exact ⟨row, hrow, hid, hparent⟩
  · intro ⟨row, hrow, hid, hparent⟩
    exact ⟨row, ⟨hrow, hparent⟩, hid⟩

theorem within_grantingGroups : (t.grantingGroups name).Within where
  seed := by
    intro groupId hgroup
    obtain ⟨roleId, -, hmapped⟩ := List.mem_flatMap.mp hgroup
    exact (t.groupRoles_fk _ (mem_sourcesOf.mp hmapped)).1
  step := by
    intro parent _ groupId hgroup
    obtain ⟨row, hrow, rfl, -⟩ := mem_beneath.mp hgroup
    exact List.mem_map_of_mem hrow

/-- The groups that hand a capability down. -/
theorem mem_grantingGroups_iff :
    groupId ∈ (t.grantingGroups name).result ↔
      ∃ ancestor roleId, ReflTransGen t.Under groupId ancestor ∧
        (ancestor, roleId) ∈ t.groupRoles ∧ t.Carries roleId name := by
  have hleads : (t.grantingGroups name).Leads = Function.swap t.Under := by
    funext parent groupId
    exact propext mem_beneath
  rw [within_grantingGroups.mem_result_iff, hleads]
  constructor
  · intro ⟨ancestor, hancestor, hpath⟩
    obtain ⟨roleId, hrole, hmapped⟩ := List.mem_flatMap.mp hancestor
    exact ⟨ancestor, roleId, reflTransGen_swap.mp hpath, mem_sourcesOf.mp hmapped,
      mem_granting_iff.mp hrole⟩
  · intro ⟨ancestor, roleId, hpath, hmapped, hcarries⟩
    refine ⟨ancestor, List.mem_flatMap.mpr ⟨roleId, ?_, ?_⟩, reflTransGen_swap.mpr hpath⟩
    · exact mem_granting_iff.mpr hcarries
    · exact mem_sourcesOf.mpr hmapped

/-- A subject holds the admin client's role of a name when what it is assigned carries it. -/
theorem holds_iff_assigned :
    (∃ role, t.IsAdminRole role name ∧ t.Holds subjectId role.id) ↔
      ∃ assigned, t.Assigned subjectId assigned ∧ t.Carries assigned name := by
  constructor
  · intro ⟨role, hadmin, assigned, hassigned, hpath⟩
    exact ⟨assigned, hassigned, role, hadmin, hpath⟩
  · intro ⟨assigned, hassigned, role, hadmin, hpath⟩
    exact ⟨role, hadmin, assigned, hassigned, hpath⟩

theorem mem_holdersOf_iff : subjectId ∈ t.holdersOf name ↔
    ∃ role, t.IsAdminRole role name ∧ t.Holds subjectId role.id := by
  rw [holdersOf, List.mem_dedup, List.mem_append, List.mem_flatMap, List.mem_flatMap,
    holds_iff_assigned]
  constructor
  · intro h
    rcases h with ⟨roleId, hrole, hdirect⟩ | ⟨groupId, hgroup, hmember⟩
    · exact ⟨roleId, Or.inl (mem_sourcesOf.mp hdirect), mem_granting_iff.mp hrole⟩
    · obtain ⟨ancestor, roleId, hpath, hmapped, hcarries⟩ := mem_grantingGroups_iff.mp hgroup
      exact ⟨roleId, Or.inr ⟨groupId, ancestor, mem_sourcesOf.mp hmember, hpath, hmapped⟩, hcarries⟩
  · intro ⟨assigned, hassigned, hcarries⟩
    rcases hassigned with hdirect | ⟨groupId, ancestor, hmember, hpath, hmapped⟩
    · exact Or.inl ⟨assigned, mem_granting_iff.mpr hcarries, mem_sourcesOf.mpr hdirect⟩
    · have hgroup := mem_grantingGroups_iff.mpr ⟨ancestor, assigned, hpath, hmapped, hcarries⟩
      exact Or.inr ⟨groupId, hgroup, mem_sourcesOf.mpr hmember⟩

/-- Downward from a subject: the admin client's roles among those it holds. -/
theorem mem_adminNames_effectiveRoles :
    name ∈ adminNames (t.effectiveRoles subjectId) ↔
      ∃ role, t.IsAdminRole role name ∧ t.Holds subjectId role.id := by
  rw [mem_adminNames]
  constructor
  · intro ⟨read, hread, hkey, hname⟩
    obtain ⟨role, hrole, hid, rfl⟩ := mem_readRoles_iff.mp hread
    exact ⟨role, ⟨hrole, hkey, hname⟩, mem_roleClosure_iff.mp hid⟩
  · intro ⟨role, ⟨hrole, hkey, hname⟩, hholds⟩
    refine ⟨t.effectiveRole role, mem_readRoles_iff.mpr ⟨role, hrole, ?_, rfl⟩, hkey, hname⟩
    exact mem_roleClosure_iff.mpr hholds

/-- Downward from a role: the admin client's roles among those it reaches. -/
theorem within_reachableClosure {roleIds : List RoleId} : (t.reachableClosure roleIds).Within where
  seed := by
    intro roleId hrole
    obtain ⟨role, hmem, rfl⟩ := List.mem_map.mp hrole
    exact List.mem_map_of_mem (List.mem_of_mem_filter hmem)
  step := fun roleId _ ↦ childrenOf_subset roleId

/-- The walk finds the capabilities that are carried, and no other. -/
theorem mem_capabilitiesReachableFrom_iff {ids : List RoleId} :
    name ∈ t.capabilitiesReachableFrom ids ↔ ∃ roleId ∈ ids, t.Carries roleId name := by
  have hleads : (t.reachableClosure ids).Leads = t.Nests := nests_eq
  have hseed : ∀ roleId, roleId ∈ t.existingRoles ids ↔ roleId ∈ ids ∧ roleId ∈ t.roleIds := by
    intro roleId
    simp only [existingRoles, List.mem_map, List.mem_filter, decide_eq_true_eq, roleIds]
    constructor
    · intro ⟨role, ⟨hrole, hin⟩, hid⟩
      exact ⟨hid ▸ hin, role, hrole, hid⟩
    · intro ⟨hin, role, hrole, hid⟩
      exact ⟨role, ⟨hrole, hid ▸ hin⟩, hid⟩
  rw [capabilitiesReachableFrom, List.mem_dedup, mem_adminNames]
  constructor
  · intro ⟨read, hread, hkey, hname⟩
    obtain ⟨role, hrole, hid, rfl⟩ := mem_readRoles_iff.mp hread
    obtain ⟨first, hfirst, hpath⟩ := within_reachableClosure.mem_result_iff.mp hid
    rw [hleads] at hpath
    exact ⟨first, ((hseed first).mp hfirst).1, role, ⟨hrole, hkey, hname⟩, hpath⟩
  · intro ⟨roleId, hin, hcarries⟩
    have hexists := hcarries.mem_roleIds
    obtain ⟨role, ⟨hrole, hkey, hname⟩, hpath⟩ := hcarries
    refine ⟨t.effectiveRole role, mem_readRoles_iff.mpr ⟨role, hrole, ?_, rfl⟩, hkey, hname⟩
    have hfirst := (hseed roleId).mpr ⟨hin, hexists⟩
    refine within_reachableClosure.mem_result_iff.mpr ⟨roleId, hfirst, ?_⟩
    rw [hleads]
    exact hpath

theorem within_grantingCte : t.grantingCte.Within where
  seed := by
    intro row hrow
    obtain ⟨role, hrole, rfl⟩ := List.mem_map.mp hrow
    obtain ⟨hname, hadmin⟩ := mem_adminRoles.mp hrole
    exact List.mem_product.mpr ⟨List.mem_map_of_mem hadmin.1, hname⟩
  step := by
    intro row hrow next hnext
    obtain ⟨parent, hparent, rfl⟩ := List.mem_map.mp hnext
    exact List.mem_product.mpr ⟨parentsOf_subset _ parent hparent, (List.mem_product.mp hrow).2⟩

/-- The rows walked upward with their capability. -/
theorem leads_grantingCte {row row' : RoleId × String} :
    ReflTransGen t.grantingCte.Leads row row' ↔
      row'.2 = row.2 ∧ ReflTransGen t.Nests row'.1 row.1 := by
  constructor
  · intro hpath
    induction hpath with
    | refl => exact ⟨rfl, .refl⟩
    | tail _ hlast ih =>
      obtain ⟨parent, hparent, rfl⟩ := List.mem_map.mp hlast
      exact ⟨ih.1, ih.2.head (mem_sourcesOf.mp hparent)⟩
  · intro ⟨hname, hpath⟩
    obtain ⟨roleId, name⟩ := row
    obtain ⟨roleId', name'⟩ := row'
    obtain rfl : name' = name := hname
    change ReflTransGen t.Nests roleId' roleId at hpath
    induction hpath using ReflTransGen.head_induction_on with
    | refl => exact .refl
    | head hfirst _ ih => exact ih.tail (List.mem_map.mpr ⟨_, mem_sourcesOf.mpr hfirst, rfl⟩)

theorem mem_grantingCte_iff : (roleId, name) ∈ t.grantingCte.result ↔
    name ∈ ADMIN_CAPABILITIES ∧ t.Carries roleId name := by
  rw [within_grantingCte.mem_result_iff]
  constructor
  · intro ⟨row, hrow, hpath⟩
    obtain ⟨role, hrole, rfl⟩ := List.mem_map.mp hrow
    obtain ⟨rfl, hnests⟩ := leads_grantingCte.mp hpath
    obtain ⟨hname, hadmin⟩ := mem_adminRoles.mp hrole
    exact ⟨hname, role, hadmin, hnests⟩
  · intro ⟨hname, role, hadmin, hpath⟩
    obtain rfl := hadmin.2.2
    have hrole := mem_adminRoles.mpr ⟨hname, hadmin⟩
    exact ⟨(role.id, role.name), List.mem_map.mpr ⟨role, hrole, rfl⟩,
      leads_grantingCte.mpr ⟨rfl, hpath⟩⟩

theorem adminReachOfRoles_eq (roleIds : List RoleId) :
    t.adminReachOfRoles roleIds = roleIds.map fun root ↦ (root,
      ADMIN_CAPABILITIES.filter fun name ↦ decide (name ∈ t.capabilitiesReachableFrom [root])) := by
  refine List.map_congr_left fun root hroot ↦ congrArg (Prod.mk root) ?_
  refine List.filter_congr fun name hname ↦ decide_eq_decide.mpr ?_
  rw [List.mem_filter, mem_grantingCte_iff, mem_capabilitiesReachableFrom_iff]
  simp [hname, hroot]

variable {groupIds : List GroupId}

theorem within_chain : (t.chain groupIds).Within where
  seed := by
    intro row hrow
    obtain ⟨group, hgroup, rfl⟩ := List.mem_map.mp hrow
    obtain ⟨hmem, hin⟩ := List.mem_filter.mp hgroup
    exact List.mem_product.mpr ⟨of_decide_eq_true hin, hmem⟩
  step := by
    intro row hrow next hnext
    obtain ⟨parent, hparent, rfl⟩ := List.mem_map.mp hnext
    exact List.mem_product.mpr ⟨(List.mem_product.mp hrow).1, (mem_parentOf.mp hparent).2⟩

theorem within_ancestors : (t.ancestors groupIds).Within where
  seed := fun _ hgroup ↦ List.mem_of_mem_filter hgroup
  step := fun _ _ _ hparent ↦ (mem_parentOf.mp hparent).2

/-- The chain walked from many roots is that of each. -/
theorem mem_chain_iff {root : GroupId} {group : Group} :
    (root, group) ∈ (t.chain groupIds).result ↔
      root ∈ groupIds ∧ group ∈ (t.ancestors [root]).result := by
  have hleads : ∀ row row' : GroupId × Group, ReflTransGen (t.chain groupIds).Leads row row' ↔
      row'.1 = row.1 ∧
        ReflTransGen (fun group parent ↦ parent ∈ t.parentOf group) row.2 row'.2 := by
    intro row row'
    constructor
    · intro hpath
      induction hpath with
      | refl => exact ⟨rfl, .refl⟩
      | tail _ hlast ih =>
        obtain ⟨parent, hparent, rfl⟩ := List.mem_map.mp hlast
        exact ⟨ih.1, ih.2.tail hparent⟩
    · intro ⟨hroot, hpath⟩
      obtain ⟨root, group⟩ := row
      obtain ⟨root', group'⟩ := row'
      obtain rfl : root' = root := hroot
      change ReflTransGen _ group group' at hpath
      induction hpath with
      | refl => exact .refl
      | tail _ hlast ih => exact ih.tail (List.mem_map.mpr ⟨_, hlast, rfl⟩)
  rw [within_chain.mem_result_iff, within_ancestors.mem_result_iff]
  constructor
  · intro ⟨row, hrow, hpath⟩
    obtain ⟨first, hfirst, rfl⟩ := List.mem_map.mp hrow
    obtain ⟨hmem, hin⟩ := List.mem_filter.mp hfirst
    obtain ⟨rfl, hunder⟩ := (hleads _ _).mp hpath
    exact ⟨of_decide_eq_true hin, first, List.mem_filter.mpr ⟨hmem, by simp⟩, hunder⟩
  · intro ⟨hroot, first, hfirst, hpath⟩
    obtain ⟨hmem, hin⟩ := List.mem_filter.mp hfirst
    obtain rfl : first.id = root := by simpa using hin
    refine ⟨(first.id, first), List.mem_map.mpr ⟨first, ?_, rfl⟩, (hleads _ _).mpr ⟨rfl, hpath⟩⟩
    exact List.mem_filter.mpr ⟨hmem, decide_eq_true hroot⟩

theorem mem_capabilitiesOfGroups_iff :
    name ∈ t.capabilitiesOfGroupsAndAncestors [groupId] ↔
      ∃ group ∈ (t.ancestors [groupId]).result, ∃ roleId, (group.id, roleId) ∈ t.groupRoles ∧
        t.Carries roleId name := by
  rw [capabilitiesOfGroupsAndAncestors, mem_capabilitiesReachableFrom_iff]
  simp only [List.mem_flatMap, ancestorsOf, List.mem_map, mem_lookupAll]
  constructor
  · intro ⟨roleId, ⟨_, ⟨group, hgroup, rfl⟩, hmapped⟩, hcarries⟩
    exact ⟨group, hgroup, roleId, hmapped, hcarries⟩
  · intro ⟨group, hgroup, roleId, hmapped, hcarries⟩
    exact ⟨roleId, ⟨group.id, ⟨group, hgroup, rfl⟩, hmapped⟩, hcarries⟩

/-- The report on groups is what membership of each hands out by itself. -/
theorem adminReachOfGroups_eq (groupIds : List GroupId) :
    t.adminReachOfGroups groupIds = groupIds.map fun root ↦ (root,
      ADMIN_CAPABILITIES.filter fun name ↦
        decide (name ∈ t.capabilitiesOfGroupsAndAncestors [root])) := by
  refine List.map_congr_left fun root hroot ↦ congrArg (Prod.mk root) ?_
  refine List.filter_congr fun name hname ↦ decide_eq_decide.mpr ?_
  rw [mem_capabilitiesOfGroups_iff]
  simp only [List.mem_flatMap, List.mem_map, List.mem_filter, decide_eq_true_eq]
  constructor
  · intro ⟨⟨root', group⟩, hchain, ⟨roleId, name'⟩, ⟨hgranted, hmapped⟩, heq⟩
    obtain ⟨rfl, rfl⟩ := Prod.mk.inj heq
    exact ⟨group, (mem_chain_iff.mp hchain).2, roleId, hmapped, (mem_grantingCte_iff.mp hgranted).2⟩
  · intro ⟨group, hgroup, roleId, hmapped, hcarries⟩
    refine ⟨(root, group), mem_chain_iff.mpr ⟨hroot, hgroup⟩, (roleId, name), ⟨?_, hmapped⟩, rfl⟩
    exact mem_grantingCte_iff.mpr ⟨hname, hcarries⟩

variable {held : List String}

/-- The target ceiling is passed exactly by those a tenant-wide write names. -/
theorem targetOverreach_ne_nil_iff :
    t.targetOverreach subjectId held ≠ [] ↔
      ∃ name ∈ CAPABILITY_NAMES, name ∉ held ∧ subjectId ∈ t.holdersOf name := by
  have hsome : ∀ names : List String, names ≠ [] ↔ ∃ name, name ∈ names := fun names ↦
    ⟨List.exists_mem_of_ne_nil names, fun ⟨_, hname⟩ ↦ List.ne_nil_of_mem hname⟩
  rw [targetOverreach, overreach, hsome]
  simp only [List.mem_filter, List.mem_dedup, decide_eq_true_eq, mem_holdersOf_iff,
    ← mem_adminNames_effectiveRoles]
  constructor
  · intro ⟨name, hname, hout⟩
    obtain ⟨role, hrole, hkey, rfl⟩ := mem_adminNames.mp hname
    obtain ⟨hmem, hcapability⟩ := List.mem_filter.mp hrole
    have hname := mem_adminNames.mpr ⟨role, hmem, hkey, rfl⟩
    exact ⟨role.name, of_decide_eq_true hcapability, hout, hname⟩
  · intro ⟨name, hcapability, hout, hname⟩
    obtain ⟨role, hrole, hkey, rfl⟩ := mem_adminNames.mp hname
    refine ⟨role.name, mem_adminNames.mpr ⟨role, ?_, hkey, rfl⟩, hout⟩
    exact List.mem_filter.mpr ⟨hrole, decide_eq_true hcapability⟩

theorem mem_subjectsBeyond_iff :
    (∃ beyond, t.subjectsBeyond held = some beyond ∧ subjectId ∈ beyond) ↔
      ∃ name ∈ CAPABILITY_NAMES, name ∉ held ∧ subjectId ∈ t.holdersOf name := by
  rw [subjectsBeyond]
  constructor
  · intro ⟨beyond, hbeyond, hsubject⟩
    split at hbeyond
    case isTrue => simp at hbeyond
    case isFalse =>
      obtain rfl := Option.some.inj hbeyond
      rw [List.mem_dedup, List.mem_flatMap] at hsubject
      obtain ⟨name, hname, hholder⟩ := hsubject
      obtain ⟨hcapability, hout⟩ := List.mem_filter.mp hname
      exact ⟨name, hcapability, of_decide_eq_true hout, hholder⟩
  · intro ⟨name, hcapability, hout, hholder⟩
    have hmissing : name ∈ CAPABILITY_NAMES.filter fun name ↦ decide (name ∉ held) :=
      List.mem_filter.mpr ⟨hcapability, decide_eq_true hout⟩
    refine ⟨_, if_neg (List.ne_nil_of_mem hmissing), ?_⟩
    exact List.mem_dedup.mpr (List.mem_flatMap.mpr ⟨name, hmissing, hholder⟩)

end Walks

/-- Every recursive query over the tables comes to its end, with what its edges reach. -/
structure EveryQuerySettles : Prop where
  groupClosure : ∀ subjectId, (t.groupClosure subjectId).Settles
  roleClosure : ∀ subjectId, (t.roleClosure subjectId).Settles
  reachableClosure : ∀ roleIds, (t.reachableClosure roleIds).Settles
  ancestors : ∀ groupIds, (t.ancestors groupIds).Settles
  granting : ∀ name, (t.granting name).Settles
  grantingGroups : ∀ name, (t.grantingGroups name).Settles
  grantingCte : t.grantingCte.Settles
  chain : ∀ groupIds, (t.chain groupIds).Settles

/-- The downward and the upward walks agree, over any tables of a tenant. -/
theorem walks_agree :
    t.EveryQuerySettles ∧
    (∀ subjectId name, subjectId ∈ t.holdersOf name ↔
      ∃ role ∈ t.effectiveRoles subjectId,
        role.clientKey = some ADMIN_CLIENT_ID ∧ role.name = name) ∧
    (∀ held subjectId, (∃ beyond, t.subjectsBeyond held = some beyond ∧ subjectId ∈ beyond) ↔
      t.targetOverreach subjectId held ≠ []) ∧
    (∀ roleIds, t.adminReachOfRoles roleIds = roleIds.map fun root ↦ (root,
      ADMIN_CAPABILITIES.filter fun name ↦
        decide (name ∈ t.capabilitiesReachableFrom [root]))) ∧
    (∀ groupIds, t.adminReachOfGroups groupIds = groupIds.map fun root ↦ (root,
      ADMIN_CAPABILITIES.filter fun name ↦
        decide (name ∈ t.capabilitiesOfGroupsAndAncestors [root]))) ∧
    ∀ subjectId limit, 0 < limit →
      VisitsOnce listingKey (t.listEffectiveRoles subjectId limit)
        (t.effectiveRoles subjectId) := by
  refine ⟨?_, ?_, ?_, adminReachOfRoles_eq, adminReachOfGroups_eq, fun subjectId limit hlimit ↦
    pages_visitOnce subjectId hlimit⟩
  · exact {
      groupClosure := fun _ ↦ within_groupClosure.settles
      roleClosure := fun _ ↦ within_roleClosure.settles
      reachableClosure := fun _ ↦ within_reachableClosure.settles
      ancestors := fun _ ↦ within_ancestors.settles
      granting := fun _ ↦ within_granting.settles
      grantingGroups := fun _ ↦ within_grantingGroups.settles
      grantingCte := within_grantingCte.settles
      chain := fun _ ↦ within_chain.settles }
  · intro subjectId name
    rw [mem_holdersOf_iff, ← mem_adminNames_effectiveRoles, mem_adminNames]
  · intro held subjectId
    rw [mem_subjectsBeyond_iff, targetOverreach_ne_nil_iff]

/-- Two roles that grant one another, one of them a capability, and a subject whose group has
the other. -/
def cyclic : Tables where
  clients := [⟨1, ADMIN_CLIENT_ID⟩]
  roles := [⟨1, "view-users", some 1⟩, ⟨2, "helpdesk", none⟩]
  roleComposites := [(2, 1), (1, 2)]
  groups := [⟨1, none⟩]
  groupRoles := [(1, 2)]
  subjectRoles := []
  subjectGroups := [(7, 1)]
  clients_id := by decide
  roles_id := by decide
  groups_id := by decide
  composites_fk := by decide
  groups_fk := by decide
  groupRoles_fk := by decide
  subjectRoles_fk := by decide
  subjectGroups_fk := by decide

/-- The cycle is walked to its end both ways, and the subject holds the capability. -/
theorem walks_agree_cyclic : cyclic.EveryQuerySettles ∧ cyclic.holdersOf "view-users" = [7] ∧
    ∃ role ∈ cyclic.effectiveRoles 7,
      role.clientKey = some ADMIN_CLIENT_ID ∧ role.name = "view-users" := by
  obtain ⟨hsettles, hholders, -⟩ := walks_agree cyclic
  have hnamed : cyclic.holdersOf "view-users" = [7] := by decide +kernel
  exact ⟨hsettles, hnamed, (hholders 7 "view-users").mp (by simp [hnamed])⟩

end Odudu.DomainAuthz.Tables
