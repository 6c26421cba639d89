import Odudu.ProtocolOidc.AccessToken

/-!
# What an agent may do at the admin API

`service/agent-scope.ts`: the reads an agent never gets, and the writes it may make, each with
the members that its body may hold.  A write that is not a `PATCH` adds or removes a row, and is
for a token of the MCP endpoint alone.

The built-in scope names are those of `domain-tenant`'s `provision-defaults.ts`.  The `body`
column of a write route, which no check reads, is left out.
-/

set_option autoImplicit false

namespace Odudu.ProtocolAdmin

open ProtocolOidc

inductive Method where
  | get
  | patch
  | post
  | put
  | delete
  deriving DecidableEq

def Method.text : Method → String
  | get => "GET"
  | patch => "PATCH"
  | post => "POST"
  | put => "PUT"
  | delete => "DELETE"

structure AdminRoute where
  method : Method
  pattern : String

def routeKey (method : Method) (pattern : String) : String := method.text ++ " " ++ pattern

/-- What a write is to. -/
inductive WriteTarget where
  | client
  | clientContent
  | scope
  | none
  deriving DecidableEq

/-- One mutation an agent token may make. -/
structure AgentWriteRoute where
  method : Method
  pattern : String
  target : WriteTarget
  fields : List String

/-- The value of a member of a body, as far as a check looks at one. -/
inductive Member where
  | text (value : String)
  | other
  deriving DecidableEq

/-- A body as parsed: none, an object, or any other value. -/
inductive Body where
  | absent
  | object (members : List (String × Member))
  | other
  deriving DecidableEq

/-- Reads an agent never gets. -/
def AGENT_DENIED_READS : List String := [
  "GET /admin/tenants/:tenant/export",
  "GET /admin/tenants/:tenant/audit/export",
  "GET /admin/tenants/:tenant/theme/assets/:assetId/content",
  "GET /admin/tenants/:tenant/subjects/:id/profile",
  "GET /admin/tenants/:tenant/subjects/:id/credentials",
  "GET /admin/tenants/:tenant/registration-tokens",
  "GET /admin/tenants/:tenant/smtp",
  "GET /admin/tenants/:tenant/clients/:id/evaluate"]

/-- The reads that span tenants. -/
def INSTANCE_READS : List String := ["GET /admin/tenants", "GET /admin/tenants/count"]

def BUILTIN_CLIENT_GUARDED_FIELDS : List String := ["name", "name_i18n"]

def THEME_BODY_FIELDS : List String := ["tokens", "stylesheet", "templates", "assets"]

/-- What `mcp:write` adds to the reads. -/
def AGENT_WRITE_ROUTES : List AgentWriteRoute := [
  ⟨.patch, "/admin/tenants/:tenant/clients/:id", .client,
    ["name", "description", "name_i18n", "description_i18n"]⟩,
  ⟨.patch, "/admin/tenants/:tenant/scopes/:id", .scope,
    ["description", "description_i18n", "display_order"]⟩,
  ⟨.patch, "/admin/tenants/:tenant/roles/:id", .none, ["description"]⟩,
  ⟨.patch, "/admin/tenants/:tenant/groups/:id", .none, ["description"]⟩,
  ⟨.post, "/admin/tenants/:tenant/roles", .none, ["name", "description", "client_id"]⟩,
  ⟨.post, "/admin/tenants/:tenant/groups", .none, ["name", "description"]⟩,
  ⟨.post, "/admin/tenants/:tenant/scopes", .scope,
    ["name", "description", "description_i18n", "display_order"]⟩,
  ⟨.patch, "/admin/tenants/:tenant/settings", .none,
    ["display_name", "supported_locales", "default_locale"]⟩,
  ⟨.put, "/admin/tenants/:tenant/message-overrides/:locale/:key", .none, ["message"]⟩,
  ⟨.delete, "/admin/tenants/:tenant/message-overrides/:locale/:key", .none, []⟩,
  ⟨.put, "/admin/tenants/:tenant/theme", .none, THEME_BODY_FIELDS⟩,
  ⟨.put, "/admin/tenants/:tenant/clients/:id/theme", .clientContent, THEME_BODY_FIELDS⟩]

/-- `DEFAULT_SCOPES`, by name. -/
def TENANT_DEFAULT_SCOPE_NAMES : List String :=
  ["openid", "profile", "email", "address", "phone", "roles", "groups", "offline_access",
    "mcp:read", "mcp:write"]

def isBuiltinScopeName (name : String) : Bool := TENANT_DEFAULT_SCOPE_NAMES.contains name

def writeEntry (route : AdminRoute) : Option AgentWriteRoute :=
  AGENT_WRITE_ROUTES.find? fun entry ↦
    entry.method == route.method && entry.pattern == route.pattern

def scopeAdmits (scopes : List String) (route : AdminRoute) (tenantIsSystem : Bool) : Bool :=
  if route.method = .get then
    let key := routeKey route.method route.pattern
    if AGENT_DENIED_READS.contains key then false
    else if INSTANCE_READS.contains key && !tenantIsSystem then false
    else holdsMcpScope scopes
  else scopes.contains MCP_WRITE_SCOPE && (writeEntry route).isSome

/-- A body names only what the entry admits, and a `DELETE` has none. -/
def agentBodyAdmitted (route : AdminRoute) (body : Body) : Bool :=
  match writeEntry route with
  | none => false
  | some entry =>
    if entry.method = .delete then body == .absent
    else
      match body with
      | .object members => members.all fun member ↦ entry.fields.contains member.1
      | _ => false

def agentWriteNeedsEndpoint (route : AdminRoute) : Bool :=
  (writeEntry route).any fun entry ↦ entry.method != .patch

def agentWritesClient (route : AdminRoute) : Bool :=
  (writeEntry route).any fun entry ↦ entry.target == .client || entry.target == .clientContent

/-- A built-in client is refused whatever the body names. -/
def agentGuardsWholeClient (route : AdminRoute) : Bool :=
  (writeEntry route).any fun entry ↦ entry.target == .clientContent

/-- A built-in scope is refused whatever the body names. -/
def agentGuardsBuiltinScope (route : AdminRoute) : Bool :=
  (writeEntry route).any fun entry ↦ entry.target == .scope && entry.method == .patch

/-- A create is refused when its body names a built-in scope. -/
def agentGuardsBuiltinScopeName (route : AdminRoute) : Bool :=
  (writeEntry route).any fun entry ↦ entry.target == .scope && entry.method == .post

def agentBodyNamesGuardedField : Body → Bool
  | .object members => BUILTIN_CLIENT_GUARDED_FIELDS.any fun field ↦
      members.any fun member ↦ member.1 == field
  | _ => false

/-- The body names these members and nothing else. -/
def Body.NamesOnly (body : Body) (fields : List String) : Prop :=
  match body with
  | .absent => True
  | .object members => ∀ member ∈ members, member.1 ∈ fields
  | .other => False

variable {route : AdminRoute}

theorem writeEntry_eq_some {entry : AgentWriteRoute}
    (h : writeEntry route = some entry) :
    entry ∈ AGENT_WRITE_ROUTES ∧ entry.method = route.method ∧ entry.pattern = route.pattern := by
  have hmatches := List.find?_some h
  simp only [Bool.and_eq_true, beq_iff_eq] at hmatches
  exact ⟨List.mem_of_find?_eq_some h, hmatches⟩

/-- A body that is admitted names only the members of the entry. -/
theorem namesOnly_of_admitted {body : Body}
    (h : agentBodyAdmitted route body = true) :
    ∃ entry, writeEntry route = some entry ∧ body.NamesOnly entry.fields := by
  unfold agentBodyAdmitted at h
  split at h
  case h_1 => exact nomatch h
  case h_2 entry hentry =>
    refine ⟨entry, hentry, ?_⟩
    split at h
    case isTrue =>
      obtain rfl := eq_of_beq h
      trivial
    case isFalse =>
      split at h
      case h_1 members =>
        intro member hmem
        exact List.contains_iff_mem.mp (List.all_eq_true.mp h member hmem)
      case h_2 => exact nomatch h

/-- What a scope admits is a read that an agent gets, or one of the writes. -/
theorem scopeAdmits_iff {scopes : List String} {tenantIsSystem : Bool} :
    scopeAdmits scopes route tenantIsSystem = true ↔
      (route.method = .get ∧ routeKey route.method route.pattern ∉ AGENT_DENIED_READS ∧
        (routeKey route.method route.pattern ∈ INSTANCE_READS → tenantIsSystem = true) ∧
        holdsMcpScope scopes = true) ∨
      (route.method ≠ .get ∧ MCP_WRITE_SCOPE ∈ scopes ∧ (writeEntry route).isSome = true) := by
  unfold scopeAdmits
  by_cases hget : route.method = .get
  · simp only [hget, if_true, ne_eq, not_true_eq_false, false_and, or_false, true_and]
    by_cases hdenied : routeKey .get route.pattern ∈ AGENT_DENIED_READS
    · simp [hdenied]
    · cases tenantIsSystem <;> simp [hdenied]
  · simp [hget]

/-- A write that an agent may make, and that is no amendment, is held to the endpoint. -/
theorem agentWriteNeedsEndpoint_of_write (hpatch : route.method ≠ .patch)
    (hentry : (writeEntry route).isSome = true) : agentWriteNeedsEndpoint route = true := by
  obtain ⟨entry, hentry⟩ := Option.isSome_iff_exists.mp hentry
  have hmethod := (writeEntry_eq_some hentry).2.1
  rw [agentWriteNeedsEndpoint, hentry, Option.any_some, hmethod]
  exact bne_iff_ne.mpr hpatch

end Odudu.ProtocolAdmin
