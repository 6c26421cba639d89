import Odudu.DomainTheme.BrandingCache
import Mathlib.Algebra.GroupWithZero.Nat

/-!
# Resolving a tenant's theme and its wording

`usecase/resolve-branding.ts` and `apps/server/src/message-overrides.ts`, which fill a
branding cache in the same way: a page is answered from the cache, with nothing while its
last read is backed off, or with a read, its own or one under way for the same key and
generation.  A mail is answered from the tenant's entry of the same cache or with reads of
its own.  `Resolver` is what differs, `brandingResolver` and `overridesResolver` are the two.

A process is one event after another: what runs between two awaits is one event.  A read is
numbered as it begins.  The step at which a read began goes with the value it gives, and
with the backoff it leaves; the code has no such thing, and nothing depends on it.

What is only logged is left out.
-/

set_option autoImplicit false

namespace Odudu.DomainTheme

/-- `${tenantId}:${scope}` -/
def cacheKey (tenantId : TenantId) (scope : Text) : Text := tenantId.text ++ ':' :: scope

/-- `${key}#${generation}` -/
def flightOf (key : Text) (generation : ℕ) : Text := key ++ '#' :: Nat.toDigits 10 generation

structure Resolver where
  /-- What a page asks for. -/
  Page : Type
  /-- What a mail asks for. -/
  Mail : Type
  /-- What a read gives. -/
  Layers : Type
  /-- What a page gets. -/
  Value : Type
  /-- What a mail gets. -/
  Sent : Type
  options : CacheOptions
  maxReadsInFlight : ℕ
  backoffMs : ℕ
  maxBackoffs : ℕ
  /-- What a page gets whatever goes wrong. -/
  fallback : Value
  pageTenant : Page → TenantId
  /-- What follows the tenant in the key; none when nothing is to be read. -/
  pageScope : Page → Option Text
  /-- None when it throws. -/
  build : Page → Layers → Option Value
  weigh : Value → ℕ
  mailTenant : Mail → TenantId
  mailThemed : Bool
  /-- A client's own theme is asked for. -/
  ownClient : Mail → Bool
  /-- The page cache holds the theme for the address of the mail. -/
  onPath : Mail → Bool
  buildOwn : Mail → Layers → Option Sent
  buildTenant : Mail → Layers → Option Value
  sent : Value → Sent
  noMail : Sent

variable (R : Resolver)

structure Backoff where
  untilAt : Time
  generation : ℕ
  /-- The step at which the read that failed began. -/
  began : ℕ

/-- What a read is for.  Requests are known by the step at which they began. -/
inductive Errand where
  /-- The requests that wait for it, and its value once that is known. -/
  | page (ask : R.Page) (key : Text) (generation : ℕ) (waiting : List ℕ) (value : Option R.Value)
  | ownMail (ask : R.Mail) (asked : ℕ)
  | mail (ask : R.Mail) (key : Text) (generation asked : ℕ)

structure Read where
  errand : Errand R
  began : ℕ

/-- What a request got, and the step at which the read behind it began. -/
structure Answer where
  tenantId : TenantId
  asked : ℕ
  source : Option ℕ
  got : R.Value ⊕ R.Sent

structure Process where
  cache : BrandingCache (R.Value × ℕ)
  failedUntil : AList fun _ : Text ↦ Backoff
  inflight : AList fun _ : Text ↦ ℕ
  reads : ℕ → Option (Read R)
  /-- How many reads have begun. -/
  started : ℕ
  step : ℕ
  /-- The tenants that were invalidated, and at which step. -/
  invalidated : List (TenantId × ℕ)
  answers : List (Answer R)

inductive Event where
  | page (ask : R.Page) (now : Time)
  | mail (ask : R.Mail) (now : Time)
  /-- A read gives its layers, or fails. -/
  | completes (number : ℕ) (layers : Option R.Layers) (now : Time)
  /-- What follows the read of a page: it is no longer in flight, and the requests get it. -/
  | settles (number : ℕ)
  | invalidate (tenantId : TenantId)

variable {R}

namespace Process

def start : Process R where
  cache := .empty
  failedUntil := ∅
  inflight := ∅
  reads := fun _ ↦ none
  started := 0
  step := 0
  invalidated := []
  answers := []

variable (P : Process R)

def answer (answer : Answer R) : Process R := { P with answers := answer :: P.answers }

def begin (errand : Errand R) : Process R :=
  { P with
    reads := Function.update P.reads P.started (some ⟨errand, P.step⟩)
    started := P.started + 1 }

/-! ### Pages -/

/-- The backoff that holds a page back. -/
def backedOff (key : Text) (tenantId : TenantId) (now : Time) : Option Backoff :=
  (P.failedUntil.lookup key).filter fun backoff ↦
    decide (now < backoff.untilAt) &&
      decide (backoff.generation = P.cache.generationOf tenantId)

/-- The request waits for a read under way. -/
def join (number : ℕ) : Process R :=
  { P with
    reads := Function.update P.reads number
      ((P.reads number).map fun read ↦
        match read.errand with
        | .page ask key generation waiting value =>
          { read with errand := .page ask key generation (P.step :: waiting) value }
        | _ => read) }

def beginPage (ask : R.Page) (key : Text) : Process R :=
  let generation := P.cache.generationOf (R.pageTenant ask)
  let flight := flightOf key generation
  match P.inflight.lookup flight with
  | some running => P.join running
  | none =>
    let begun := P.begin (.page ask key generation [P.step] none)
    if P.inflight.entries.length < R.maxReadsInFlight then
      { begun with inflight := P.inflight.insert flight P.started }
    else begun

def page (ask : R.Page) (now : Time) : Process R :=
  let tenantId := R.pageTenant ask
  match R.pageScope ask with
  | none => P.answer ⟨tenantId, P.step, none, .inl R.fallback⟩
  | some scope =>
    let key := cacheKey tenantId scope
    let got : Process R := { P with cache := (P.cache.get key now).2 }
    match (P.cache.get key now).1 with
    | some (value, began) => got.answer ⟨tenantId, P.step, some began, .inl value⟩
    | none =>
      match got.backedOff key tenantId now with
      | some backoff => got.answer ⟨tenantId, P.step, some backoff.began, .inl R.fallback⟩
      | none => got.beginPage ask key

/-- `fill`, after its read. -/
def fill (number : ℕ) (began : ℕ) (ask : R.Page) (key : Text) (generation : ℕ) (waiting : List ℕ)
    (layers : Option R.Layers) (now : Time) : Process R :=
  let known (value : R.Value) := Function.update P.reads number
    (some ⟨.page ask key generation waiting (some value), began⟩)
  match layers with
  | none =>
    let failedUntil := if R.maxBackoffs ≤ P.failedUntil.entries.length then ∅ else P.failedUntil
    { P with
      failedUntil := failedUntil.insert key ⟨now + R.backoffMs, generation, began⟩
      reads := known R.fallback }
  | some layers =>
    match R.build ask layers with
    | none => { P with reads := known R.fallback }
    | some value =>
      { P with
        cache := P.cache.set R.options key (R.pageTenant ask) (value, began) (R.weigh value)
          generation now
        reads := known value }

/-- The end of the read of a page. -/
def settle (number : ℕ) (began : ℕ) (ask : R.Page) (key : Text) (generation : ℕ)
    (waiting : List ℕ) (value : R.Value) : Process R :=
  let flight := flightOf key generation
  { P with
    inflight :=
      if P.inflight.lookup flight = some number then P.inflight.erase flight else P.inflight
    reads := Function.update P.reads number none
    answers := (waiting.map fun asked ↦ ⟨R.pageTenant ask, asked, some began, .inl value⟩) ++
      P.answers }

/-! ### Mail -/

def tenantMail (ask : R.Mail) (asked : ℕ) (now : Time) : Process R :=
  let tenantId := R.mailTenant ask
  let key := cacheKey tenantId []
  if R.onPath ask then
    let got : Process R := { P with cache := (P.cache.get key now).2 }
    match (P.cache.get key now).1 with
    | some (value, began) => got.answer ⟨tenantId, asked, some began, .inr (R.sent value)⟩
    | none => got.begin (.mail ask key (got.cache.generationOf tenantId) asked)
  else P.begin (.mail ask key (P.cache.generationOf tenantId) asked)

def mail (ask : R.Mail) (now : Time) : Process R :=
  if R.mailThemed then
    if R.ownClient ask then P.begin (.ownMail ask P.step) else P.tenantMail ask P.step now
  else P.answer ⟨R.mailTenant ask, P.step, none, .inr R.noMail⟩

/-- The read is over. -/
def finish (number : ℕ) : Process R := { P with reads := Function.update P.reads number none }

/-- `clientMail`, after its read, and what follows. -/
def fillOwnMail (number began : ℕ) (ask : R.Mail) (asked : ℕ) (layers : Option R.Layers)
    (now : Time) : Process R :=
  match layers.bind (R.buildOwn ask) with
  | some sent => (P.finish number).answer ⟨R.mailTenant ask, asked, some began, .inr sent⟩
  | none => (P.finish number).tenantMail ask asked now

/-- The tenant's mail, after its read. -/
def fillMail (number began : ℕ) (ask : R.Mail) (key : Text) (generation asked : ℕ)
    (layers : Option R.Layers) (now : Time) : Process R :=
  let tenantId := R.mailTenant ask
  match layers.bind (R.buildTenant ask) with
  | none => (P.finish number).answer ⟨tenantId, asked, some began, .inr R.noMail⟩
  | some value =>
    let cache :=
      if R.onPath ask then
        P.cache.set R.options key tenantId (value, began) (R.weigh value) generation now
      else P.cache
    { P.finish number with cache }.answer ⟨tenantId, asked, some began, .inr (R.sent value)⟩

/-! ### Events -/

def invalidate (tenantId : TenantId) : Process R :=
  { P with
    cache := P.cache.invalidateTenant R.options tenantId
    invalidated := (tenantId, P.step) :: P.invalidated }

/-- What an event does, when it can happen. -/
def happen : Event R → Option (Process R)
  | .page ask now => some (P.page ask now)
  | .mail ask now => some (P.mail ask now)
  | .completes number layers now =>
    match P.reads number with
    | some ⟨.page ask key generation waiting none, began⟩ =>
      some (P.fill number began ask key generation waiting layers now)
    | some ⟨.ownMail ask asked, began⟩ => some (P.fillOwnMail number began ask asked layers now)
    | some ⟨.mail ask key generation asked, began⟩ =>
      some (P.fillMail number began ask key generation asked layers now)
    | _ => none
  | .settles number =>
    match P.reads number with
    | some ⟨.page ask key generation waiting (some value), began⟩ =>
      some (P.settle number began ask key generation waiting value)
    | _ => none
  | .invalidate tenantId => some (P.invalidate tenantId)

/-- One event. -/
def perform (event : Event R) : Option (Process R) :=
  (P.happen event).map fun next ↦ { next with step := P.step + 1 }

/-- Any number of events. -/
def performAll : List (Event R) → Process R → Option (Process R)
  | [], P => some P
  | event :: events, P => (P.perform event).bind (performAll events)

end Process

/-! ### The two resolvers -/

/-- How many UTF-16 units a string has. -/
def utf16Length (text : Text) : ℕ := (text.map fun c ↦ if c.toNat < 0x10000 then 1 else 2).sum

def MAX_CLIENT_ID_LENGTH : ℕ := 255

structure Theme where
  templates : List (Text × Text)
  tokensCss : Text

/-- `buildBranding`'s result: no branding when no layer has anything. -/
structure Built (Mail : Type) where
  branding : Option Theme
  mail : Mail

/-- The layers that were read, the client's over the tenant's. -/
structure PublishedLayers (Layer : Type) where
  client : Option Layer
  tenant : Option Layer

inductive LayerName where
  | client
  | tenant

structure BrandingDeps where
  Layer : Type
  Address : Type
  MailBranding : Type
  options : CacheOptions
  origin : Option Text
  pathAddress : Text → Text → Address
  addressOrigin : Address → Text
  addressIssuer : Address → Text
  /-- None when it throws. -/
  buildBranding : Address → Text → List (LayerName × Layer) → Option (Built MailBranding)

structure BrandingScope where
  tenantId : TenantId
  tenantName : Text
  clientId : Option Text

structure MailScope (Address : Type) where
  tenantId : TenantId
  tenantName : Text
  address : Option Address
  clientId : Option Text

namespace BrandingDeps

variable (deps : BrandingDeps)

/-- What a page gets, and a mail of the same theme. -/
abbrev PageBranding : Type := Option (Theme × deps.MailBranding)

def weigh : deps.PageBranding → ℕ
  | none => 256
  | some (branding, _) =>
    2 * ((branding.templates.map fun template ↦ utf16Length template.2).sum +
      utf16Length branding.tokensCss) + 2048

def valueOf (built : Built deps.MailBranding) : deps.PageBranding :=
  built.branding.map fun branding ↦ (branding, built.mail)

/-- A client id that a theme may be kept under. -/
def usableClient (clientId : Option Text) : Option Text :=
  clientId.filter fun clientId ↦
    decide (clientId ≠ []) && decide (utf16Length clientId ≤ MAX_CLIENT_ID_LENGTH)

def layersOf (layers : PublishedLayers deps.Layer) : List (LayerName × deps.Layer) :=
  (layers.client.map fun layer ↦ (LayerName.client, layer)).toList ++
    (layers.tenant.map fun layer ↦ (LayerName.tenant, layer)).toList

/-- Where a mail's links go: its address, or that of the path. -/
def mailAddress (origin : Text) (scope : MailScope deps.Address) : deps.Address × Text :=
  match scope.address with
  | some address => (address, deps.addressOrigin address)
  | none => (deps.pathAddress origin scope.tenantName, origin)

end BrandingDeps

/-- `createResolvers` -/
def brandingResolver (deps : BrandingDeps) : Resolver where
  Page := BrandingScope
  Mail := MailScope deps.Address
  Layers := PublishedLayers deps.Layer
  Value := deps.PageBranding
  Sent := Option deps.MailBranding
  options := deps.options
  maxReadsInFlight := 256
  backoffMs := 1000
  maxBackoffs := 1024
  fallback := none
  pageTenant := BrandingScope.tenantId
  pageScope := fun scope ↦
    deps.origin.map fun _ ↦ (BrandingDeps.usableClient scope.clientId).getD []
  build := fun scope layers ↦
    deps.origin.bind fun origin ↦
      (deps.buildBranding (deps.pathAddress origin scope.tenantName) origin
        (deps.layersOf layers)).map deps.valueOf
  weigh := deps.weigh
  mailTenant := MailScope.tenantId
  mailThemed := deps.origin.isSome
  ownClient := fun scope ↦ (BrandingDeps.usableClient scope.clientId).isSome
  onPath := fun scope ↦
    scope.address.all fun address ↦
      deps.origin.all fun origin ↦
        deps.addressIssuer address == deps.addressIssuer (deps.pathAddress origin scope.tenantName)
  buildOwn := fun scope layers ↦
    deps.origin.bind fun origin ↦
      (deps.buildBranding (deps.mailAddress origin scope).1 (deps.mailAddress origin scope).2
        (deps.layersOf layers)).map fun built ↦ built.branding.map fun _ ↦ built.mail
  buildTenant := fun scope layers ↦
    deps.origin.bind fun origin ↦
      (deps.buildBranding (deps.mailAddress origin scope).1 (deps.mailAddress origin scope).2
        (layers.tenant.map fun layer ↦ (LayerName.tenant, layer)).toList).map deps.valueOf
  sent := Option.map Prod.snd
  noMail := none

structure OverridesDeps where
  /-- The canonical form of a locale's tag. -/
  canonicalLocale : Text → Option Text

/-- A tenant's wording, message by key. -/
abbrev OverrideMap : Type := List (Text × Text)

def weighOverrides (overrides : OverrideMap) : ℕ :=
  256 + (overrides.map fun message ↦ 2 * (utf16Length message.1 + utf16Length message.2) + 64).sum

/-- `createMessageOverrides`, which no mail asks. -/
def overridesResolver (deps : OverridesDeps) : Resolver where
  Page := TenantId × Text
  Mail := Empty
  Layers := OverrideMap
  Value := OverrideMap
  Sent := Unit
  options := ⟨5000, 30000, 8 * 1024 * 1024, 20000⟩
  maxReadsInFlight := 256
  backoffMs := 1000
  maxBackoffs := 1024
  fallback := []
  pageTenant := Prod.fst
  pageScope := fun ask ↦ deps.canonicalLocale ask.2
  build := fun _ overrides ↦ some overrides
  weigh := weighOverrides
  mailTenant := Empty.elim
  mailThemed := false
  ownClient := Empty.elim
  onPath := Empty.elim
  buildOwn := fun ask ↦ ask.elim
  buildTenant := fun ask ↦ ask.elim
  sent := fun _ ↦ ()
  noMail := ()

end Odudu.DomainTheme
