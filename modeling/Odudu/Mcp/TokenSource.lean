import Odudu.Mcp.CredentialStore
import Odudu.Runs.Reached

/-!
# The token source of a run

`usecase/token-source.ts`, `service/token-policy.ts` and what they use of `service/token-set.ts`
and `service/stored-sign-in.ts`: how a browser credential's tokens are obtained, by any number of
processes that share one credential store.

The lock excludes, so what a process does under it is one step; a sign-in is made outside it.
The authorization server answers a refresh with tokens, ends the grant or is not reached, and
gives out each refresh token once.  Each process knows its authority before it takes the lock.

When a bearer is asked for anew (the token that is kept, its expiry, the cool-down after a
failure) only decides when a process obtains one, and any time is let by here.  What is said to
a person is left out, and so is the judging of the access token, which comes after.
-/

set_option autoImplicit false

namespace Odudu.Mcp.TokenSource

open Runs

variable {Token Proc : Type}

inductive Scope where
  | mcpRead
  | mcpWrite
  deriving DecidableEq

/-- A token response; the first list is the access token's own `scope` claim. -/
structure TokenSet (Token : Type) where
  claimedScopes : List String
  scope : List String
  refreshToken : Option Token

def scopeOf (set : TokenSet Token) : List String := (set.claimedScopes ++ set.scope).dedup

def holdsWrite (set : TokenSet Token) : Bool := (scopeOf set).contains "mcp:write"

/-! ### `service/token-policy.ts` -/

def readsStoredSignIn (scope : Scope) : Bool := scope = .mcpRead

def keepsRefreshToken (scope : Scope) (set : TokenSet Token) : Option Token :=
  if !readsStoredSignIn scope || holdsWrite set then none else set.refreshToken

/-! ### `service/stored-sign-in.ts` -/

structure Authority where
  issuer : String
  tokenEndpoint : String

structure StoredSignIn (Token : Type) where
  refreshToken : Token
  issuer : String
  tokenEndpoint : String
  deriving DecidableEq

/-- A text in the store, by what is read of it. -/
inductive StoredText (Token : Type) where
  | encoded (stored : StoredSignIn Token)
  | other
  deriving DecidableEq

def encodeStored (stored : StoredSignIn Token) : StoredText Token := .encoded stored

def decodeStored : StoredText Token → Option (StoredSignIn Token)
  | .encoded stored => some stored
  | .other => none

def storedMatches (stored : StoredSignIn Token) (server : Authority) : Bool :=
  stored.issuer = server.issuer && stored.tokenEndpoint = server.tokenEndpoint

/-! ### Under the lock -/

/-- What the authorization server answers a refresh with. -/
inductive RefreshAnswer (Token : Type) where
  | tokens (set : TokenSet Token)
  | grantEnded
  | unanswered

/-- A refresh that was sent. -/
structure RefreshRequest (Token : Type) where
  token : Token
  answered : Bool

/-- What a process works on under the lock: the store, its own memory and the refreshes that were
sent, the last first. -/
structure Held (Token : Type) where
  store : CredentialStore (StoredText Token)
  unsaved : Option (StoredSignIn Token)
  requests : List (RefreshRequest Token)

/-- What the store and the server do while a process holds the lock. -/
structure Replies (Token : Type) where
  get : GetReply
  clear : ClearReply
  refresh : RefreshAnswer Token
  put : PutReply

namespace Held

def keep [DecidableEq Token] (scope : Scope) (server : Authority) (set : TokenSet Token)
    (put : PutReply) (w : Held Token) : Held Token :=
  match keepsRefreshToken scope set with
  | none => w
  | some token =>
    let kept : StoredSignIn Token := ⟨token, server.issuer, server.tokenEndpoint⟩
    match w.store.put (encodeStored kept) put with
    | (true, store) => { w with store, unsaved := none }
    | (false, store) => { w with store, unsaved := some kept }

/-- The sign-in is forgotten. -/
def forgets (reply : ClearReply) (w : Held Token) : Held Token :=
  { w with store := (w.store.clear reply).2, unsaved := none }

/-- There is nothing to go on with once it is forgotten; nothing at all where that throws. -/
def forget {α : Type} (reply : ClearReply) (w : Held Token) : Option (Option α) × Held Token :=
  (if (w.store.clear reply).1 then some none else none, w.forgets reply)

/-- The refresh token to present, if any; nothing at all where it throws. -/
def storedSignIn (scope : Scope) (server : Authority) (replies : Replies Token) (w : Held Token) :
    Option (Option Token) × Held Token :=
  if !readsStoredSignIn scope then (some none, w)
  else
    match if w.unsaved.isNone then w.store.get replies.get else some none with
    | none => (none, w)
    | some text =>
      match w.unsaved.or (text.bind decodeStored) with
      | some held =>
        if storedMatches held server then (some (some held.refreshToken), w)
        else w.forget replies.clear
      | none => if text.isSome then w.forget replies.clear else (some none, w)

def sends (token : Token) (answered : Bool) (w : Held Token) : Held Token :=
  { w with requests := ⟨token, answered⟩ :: w.requests }

/-- The tokens of a refresh, or none where the person has to sign in; nothing at all where it
throws. -/
def refreshStored [DecidableEq Token] (scope : Scope) (server : Authority)
    (replies : Replies Token) (w : Held Token) : Option (Option (TokenSet Token)) × Held Token :=
  match w.storedSignIn scope server replies with
  | (none, w) => (none, w)
  | (some none, w) => (some none, w)
  | (some (some stored), w) =>
    match replies.refresh with
    | .unanswered => (none, w.sends stored false)
    | .tokens set => (some (some set), (w.sends stored true).keep scope server set replies.put)
    | .grantEnded => (w.sends stored true).forget replies.clear

end Held

/-! ### The processes -/

/-- What a process was started with. -/
structure Process where
  scope : Scope
  server : Authority

/-- How far a process is in obtaining a token. -/
inductive Stage (Token : Type) where
  | idle
  | signingIn
  | keeping (set : TokenSet Token)

structure SignIns (Token Proc : Type) where
  store : CredentialStore (StoredText Token)
  requests : List (RefreshRequest Token)
  unsaved : Proc → Option (StoredSignIn Token)
  stage : Proc → Stage Token
  /-- The refresh tokens the server has given out. -/
  issued : List Token

inductive SignInEvent (Token Proc : Type) where
  /-- A process obtains a token: under the lock it refreshes what is stored. -/
  | obtain (p : Proc) (replies : Replies Token)
  /-- A person signs in, or does not. -/
  | signIn (p : Proc) (set : Option (TokenSet Token))
  /-- Under the lock a process keeps what it signed in with. -/
  | keep (p : Proc) (put : PutReply)

/-- The refresh tokens the server gives out with an event. -/
def SignInEvent.issues : SignInEvent Token Proc → List Token
  | obtain _ replies =>
    match replies.refresh with
    | .tokens set => set.refreshToken.toList
    | _ => []
  | signIn _ set => (set.bind TokenSet.refreshToken).toList
  | keep _ _ => []

namespace SignIns

/-- Before any process runs: what is in the store was given out, and none was refreshed. -/
def new (store : CredentialStore (StoredText Token)) : SignIns Token Proc where
  store := store
  requests := []
  unsaved := fun _ ↦ none
  stage := fun _ ↦ .idle
  issued := (store.shown.bind decodeStored).toList.map StoredSignIn.refreshToken

variable [DecidableEq Proc]

/-- What a process works on. -/
def held (s : SignIns Token Proc) (p : Proc) : Held Token := ⟨s.store, s.unsaved p, s.requests⟩

/-- A process lets the lock go. -/
def leaves (s : SignIns Token Proc) (p : Proc) (w : Held Token) (stage : Stage Token) :
    SignIns Token Proc where
  store := w.store
  requests := w.requests
  unsaved := Function.update s.unsaved p w.unsaved
  stage := Function.update s.stage p stage
  issued := s.issued

/-- `obtain` up to the sign-in. -/
def obtains [DecidableEq Token] (s : SignIns Token Proc) (p : Proc) (process : Process)
    (replies : Replies Token) : SignIns Token Proc :=
  match (s.held p).refreshStored process.scope process.server replies with
  | (some none, w) => s.leaves p w .signingIn
  | (_, w) => s.leaves p w .idle

/-- What a process does at an event, where it is at that stage. -/
def acts [DecidableEq Token] (processes : Proc → Process) (s : SignIns Token Proc) :
    SignInEvent Token Proc → SignIns Token Proc
  | .obtain p replies =>
    match s.stage p with
    | .idle => s.obtains p (processes p) replies
    | _ => s
  | .signIn p set =>
    match s.stage p with
    | .signingIn => s.leaves p (s.held p) ((set.map Stage.keeping).getD .idle)
    | _ => s
  | .keep p put =>
    match s.stage p with
    | .keeping set =>
      s.leaves p ((s.held p).keep (processes p).scope (processes p).server set put) .idle
    | _ => s

omit [DecidableEq Proc] in
/-- The server gives refresh tokens out. -/
def issue (s : SignIns Token Proc) (new : List Token) : SignIns Token Proc :=
  { s with issued := new ++ s.issued }

def step [DecidableEq Token] (processes : Proc → Process) (s : SignIns Token Proc)
    (e : SignInEvent Token Proc) : SignIns Token Proc :=
  (s.acts processes e).issue e.issues

end SignIns

/-- No refresh token is sent again once the server answered a refresh made with it. -/
def NeverReplays (requests : List (RefreshRequest Token)) : Prop :=
  requests.Pairwise fun later earlier ↦ earlier.answered → later.token ≠ earlier.token

/-- The server gives out no refresh token twice. -/
def IssuesFresh (s : SignIns Token Proc) (e : SignInEvent Token Proc) : Prop :=
  ∀ token ∈ e.issues, token ∉ s.issued

instance [DecidableEq Token] (s : SignIns Token Proc) (e : SignInEvent Token Proc) :
    Decidable (IssuesFresh s e) :=
  inferInstanceAs (Decidable (∀ token ∈ e.issues, token ∉ s.issued))

instance [DecidableEq Token] (requests : List (RefreshRequest Token)) :
    Decidable (NeverReplays requests) :=
  inferInstanceAs (Decidable (requests.Pairwise _))

section Runs

variable [DecidableEq Token] [DecidableEq Proc]

/-- A refresh under the lock after which the store is as the server has it: tokens that are
answered bring a refresh token to keep, a clear leaves nothing, a keychain that holds a sign-in is
in reach, and the store is not read while a process has a token that it could not store. -/
structure RefreshesSafely (s : SignIns Token Proc) (p : Proc) (replies : Replies Token) : Prop where
  rotates : ∀ set, replies.refresh = .tokens set → (keepsRefreshToken .mcpRead set).isSome
  clears : replies.clear.removes ∧ replies.clear.clearsFile
  reachesGet : s.store.ReachesGet replies.get
  reachesPut : s.store.ReachesPut replies.put
  alone : s.unsaved p = none → ∀ other, s.unsaved other = none

/-- The same of each step of a process that reads the store. -/
def StepsSafely (processes : Proc → Process) (s : SignIns Token Proc) :
    SignInEvent Token Proc → Prop
  | .obtain p replies => (processes p).scope = .mcpRead → RefreshesSafely s p replies
  | .signIn _ _ => True
  | .keep p put => (processes p).scope = .mcpRead → s.store.ReachesPut put

/-- A state of a run of processes over a store. -/
def Reachable (processes : Proc → Process) (store : CredentialStore (StoredText Token)) :
    SignIns Token Proc → Prop :=
  Reached (SignIns.step processes) (fun s e _ ↦ IssuesFresh s e) (.new store)

/-- A state of a run whose every step is safe. -/
def ReachableSafely (processes : Proc → Process) (store : CredentialStore (StoredText Token)) :
    SignIns Token Proc → Prop :=
  Reached (SignIns.step processes) (fun s e _ ↦ IssuesFresh s e ∧ StepsSafely processes s e)
    (.new store)

end Runs

end Odudu.Mcp.TokenSource
