import Odudu.DomainIdentity.PasswordPolicy
import Odudu.ProtocolOidc.Schema
import Odudu.ReadCommitted.Schedule
import Odudu.ReadCommitted.Tables

/-!
# The account tables: one statement each

The tables behind the mailed links and the passwords they set, and the repository methods
the modelled use cases call (`account/src/repository/action-tokens.ts`,
`domain-identity/src/repository`, `authn-flows/src/repository/required-actions.ts`).  A link
is presented by its hash, and its row is keyed on it (`action_tokens_hash_unique`).  A
subject has one password row (`user_credentials_one_password`), so passwords are keyed on
the subject.  The retired passwords of a subject are one cell: they are written by the
rotation alone, which holds the password's row.

Left out: `tenant_id`, and the columns no modelled function reads.  What a use case reads of
the tenant's settings is an input of its call.
-/

set_option autoImplicit false

namespace Odudu.Account

open ReadCommitted
open ProtocolOidc (Time SubjectId TokenHash)

abbrev CredentialId := ℕ

inductive ActionTokenType where
  | verifyEmail
  | resetPassword
  | executeActions
  deriving DecidableEq

/-- The required actions a mailed link may take a subject through. -/
inductive LinkedRequiredAction where
  | updatePassword
  | configureTotp
  | configurePasskey
  | generateRecoveryCodes
  deriving DecidableEq

/-- A row of `action_tokens`. -/
structure ActionToken where
  subjectId : SubjectId
  type : ActionTokenType
  email : Option String
  /-- The required actions an execute_actions link takes its subject through. -/
  actions : Option (List String)
  expiresAt : Time
  consumedAt : Option Time
  deriving DecidableEq

/-- A row of `users`. -/
structure User where
  username : String
  email : Option String
  /-- The lower case of the address, which is what an address is looked up by. -/
  emailSearch : Option String
  emailVerified : Bool
  selfRegistered : Bool

/-- A row of `user_credentials` of the type `password-history`. -/
structure RetiredPassword where
  id : CredentialId
  createdAt : Time
  hash : String

/-- A row of `user_credentials` of a type that is neither a password nor a retired one. -/
structure SecondFactor where
  subjectId : SubjectId

inductive Table where
  | clock
  | subjects
  | users
  | actionTokens
  | passwords
  | passwordHistories
  | secondFactors
  | userRequiredActions
  deriving DecidableEq

/-- The key of each table. -/
@[reducible] def Table.Id : Table → Type
  | userRequiredActions => SubjectId × LinkedRequiredAction
  | _ => ℕ

/-- The row type of each table. -/
@[reducible] def Table.Row : Table → Type
  | clock => Time
  | subjects => Unit
  | users => User
  | actionTokens => ActionToken
  | passwords => String
  | passwordHistories => List RetiredPassword
  | secondFactors => SecondFactor
  | userRequiredActions => Unit

abbrev layout : Layout where
  Table := Table
  Id := Table.Id
  Row := Table.Row

abbrev Rows := layout.Rows

namespace Rows

variable (s : Rows)

/-- The instant the clock shows. -/
def clock : Time := (s ⟨.clock, (0 : ℕ)⟩).getD 0

abbrev user (id : SubjectId) : Option User := s ⟨.users, id⟩

abbrev link (key : TokenHash) : Option ActionToken := s ⟨.actionTokens, key⟩

abbrev password (id : SubjectId) : Option String := s ⟨.passwords, id⟩

/-- The retired passwords of a subject, as they were retired. -/
def passwordHistory (id : SubjectId) : List RetiredPassword := (s ⟨.passwordHistories, id⟩).getD []

end Rows

/-- A repository method with its arguments. -/
inductive Op where
  /-- Reads the clock. -/
  | readClock
  /-- Time passes. -/
  | tick (seconds : Time)
  | subjectById (id : SubjectId)
  | holderOfEmail (search : String)
  | userBySubjectId (id : SubjectId)
  | userClaimSelfRegistered (id : SubjectId) (mailedTo : String)
  /-- The `INSERT` of `actionTokenRepository(tx).issue`. -/
  | actionTokenIssue (key : TokenHash) (row : ActionToken)
  | actionTokenConsume (key : TokenHash) (type : ActionTokenType) (now : Time)
  | actionTokenPeek (key : TokenHash) (now : Time)
  | actionTokenInvalidateOutstandingPasswordLinks (subjectId : SubjectId) (now : Time)
  | passwordFor (subjectId : SubjectId)
  /-- `credentialRepository(tx).insert` of a password. -/
  | passwordInsert (subjectId : SubjectId) (hash : String)
  /-- `credentialRepository(tx).setPassword`. -/
  | passwordSet (subjectId : SubjectId) (hash : String)
  | passwordHistory (subjectId : SubjectId)
  /-- The `UPDATE` of `credentialRepository(tx).rotatePassword`. -/
  | passwordRotate (subjectId : SubjectId) (current next : String)
  /-- The `INSERT` of `credentialRepository(tx).rotatePassword`. -/
  | passwordRetire (subjectId : SubjectId) (retired : RetiredPassword)
  | trimPasswordHistory (subjectId : SubjectId) (historyDepth : ℕ)
  | deleteSecondFactors (subjectId : SubjectId)
  | requiredActionAdd (subjectId : SubjectId) (action : LinkedRequiredAction)
  | requiredActionComplete (subjectId : SubjectId) (action : LinkedRequiredAction)

/-- A link that may still be used. -/
def ActionToken.usable (row : ActionToken) (now : Time) : Bool :=
  row.consumedAt.isNone && decide (now < row.expiresAt)

/-- A reset link, or an actions link naming `update-password`: the rows
`invalidateOutstandingPasswordLinks` is about. -/
def ActionToken.setsPassword (row : ActionToken) : Bool :=
  decide (row.type = .resetPassword) ||
    (decide (row.type = .executeActions) && (row.actions.getD []).contains "update-password")

/-- `ORDER BY created_at DESC, id DESC`. -/
def newestFirst (retired : List RetiredPassword) : List RetiredPassword :=
  retired.mergeSort fun a b ↦
    decide (b.createdAt < a.createdAt) || (decide (b.createdAt = a.createdAt) && decide (b.id ≤ a.id))

namespace Op

/-- What each method returns. -/
@[reducible] def Answer : Op → Type
  | readClock => Time
  | subjectById _ => Option Unit
  | holderOfEmail _ => Option SubjectId
  | userBySubjectId _ => Option User
  | userClaimSelfRegistered .. => Bool
  | actionTokenIssue .. => Bool
  | actionTokenConsume .. | actionTokenPeek .. => Option ActionToken
  | passwordFor _ => Option String
  | passwordInsert .. | passwordSet .. | passwordRotate .. => Bool
  | passwordHistory _ => List String
  | deleteSecondFactors _ => ℕ
  | _ => Unit

/-- `eq(tokenHash, ...), eq(type, ...)` and still usable: the `WHERE` of `consume`. -/
def consumable (key : TokenHash) (type : ActionTokenType) (now : Time) (key' : TokenHash)
    (row : ActionToken) : Bool :=
  decide (key' = key) && decide (row.type = type) && row.usable now

/-- The `WHERE` of `invalidateOutstandingPasswordLinks`. -/
def outstandingPasswordLink (subjectId : SubjectId) (row : ActionToken) : Bool :=
  decide (row.subjectId = subjectId) && row.consumedAt.isNone && row.setsPassword

/-- The `WHERE` of `claimSelfRegistered`. -/
def claimable (mailedTo : String) (row : User) : Bool :=
  row.selfRegistered && !row.emailVerified && decide (row.email = some mailedTo)

/-- What each method returns on the rows it sees; of those that search or count, `Answers`
says what they may. -/
def answer : (op : Op) → Rows → Option op.Answer
  | readClock, s => some s.clock
  | tick _, _ => some ()
  | subjectById id, s => some (s ⟨.subjects, id⟩)
  | holderOfEmail _, _ => none
  | userBySubjectId id, s => some (s.user id)
  | userClaimSelfRegistered id mailedTo, s => some ((s.user id).any (claimable mailedTo))
  | actionTokenIssue key _, s => some (s.link key).isNone
  | actionTokenConsume key type now, s =>
      some (((s.link key).filter (consumable key type now key)).map
        fun row ↦ { row with consumedAt := some now })
  | actionTokenPeek key now, s => some ((s.link key).filter fun row ↦ row.usable now)
  | actionTokenInvalidateOutstandingPasswordLinks .., _ => some ()
  | passwordFor subjectId, s => some (s.password subjectId)
  | passwordInsert subjectId _, s => some (s.password subjectId).isNone
  | passwordSet subjectId _, s => some (s.password subjectId).isSome
  | passwordHistory subjectId, s =>
      some ((newestFirst (s.passwordHistory subjectId)).map RetiredPassword.hash)
  | passwordRotate subjectId current _, s => some (decide (s.password subjectId = some current))
  | passwordRetire .., _ => some ()
  | trimPasswordHistory .., _ => some ()
  | deleteSecondFactors _, _ => none
  | requiredActionAdd .., _ => some ()
  | requiredActionComplete .., _ => some ()

/-- What each method may return on the rows it sees. -/
def Answers : (op : Op) → Rows → op.Answer → Prop
  -- The first in the order of the subjects.
  | holderOfEmail search, s, a =>
      (∀ id, a = some id → ((s.user id).bind User.emailSearch = some search ∧
          ∀ id', (s.user id').bind User.emailSearch = some search → id ≤ id')) ∧
        (a = none → ∀ id, (s.user id).bind User.emailSearch ≠ some search)
  -- How many rows went.
  | deleteSecondFactors subjectId, s, a =>
      ∃ ids : List CredentialId, ids.Nodup ∧ ids.length = a ∧
        ∀ id, id ∈ ids ↔ ∃ row, s ⟨.secondFactors, id⟩ = some row ∧ row.subjectId = subjectId
  | op, s, a => op.answer s = some a

/-- The methods that only read. -/
def reads : Op → Bool
  | readClock | subjectById _ | holderOfEmail _ | userBySubjectId _ | actionTokenPeek ..
  | passwordFor _ | passwordHistory _ => true
  | _ => false

/-- What each method writes, given the rows it sees. -/
def effect : Op → Rows → layout.Change
  | readClock, _ => fun _ ↦ none
  | tick seconds, s => Layout.update (L := layout) .clock (fun _ _ ↦ true) (· + seconds) s
  | subjectById _, _ => fun _ ↦ none
  | holderOfEmail _, _ => fun _ ↦ none
  | userBySubjectId _, _ => fun _ ↦ none
  | userClaimSelfRegistered id mailedTo, s =>
      Layout.update (L := layout) .users
        (fun id' row ↦ decide (id' = id) && claimable mailedTo row)
        (fun row ↦ { row with emailVerified := true, selfRegistered := false }) s
  | actionTokenIssue key row, s => Layout.insert (L := layout) .actionTokens key row s
  | actionTokenConsume key type now, s =>
      Layout.update (L := layout) .actionTokens (consumable key type now)
        (fun row ↦ { row with consumedAt := some now }) s
  | actionTokenPeek .., _ => fun _ ↦ none
  | actionTokenInvalidateOutstandingPasswordLinks subjectId now, s =>
      Layout.update (L := layout) .actionTokens (fun _ row ↦ outstandingPasswordLink subjectId row)
        (fun row ↦ { row with consumedAt := some now }) s
  | passwordFor _, _ => fun _ ↦ none
  | passwordInsert subjectId hash, s => Layout.insert (L := layout) .passwords subjectId hash s
  | passwordSet subjectId hash, s =>
      Layout.update (L := layout) .passwords (fun id _ ↦ decide (id = subjectId)) (fun _ ↦ hash) s
  | passwordHistory _, _ => fun _ ↦ none
  | passwordRotate subjectId current next, s =>
      Layout.update (L := layout) .passwords
        (fun id hash ↦ decide (id = subjectId) && decide (hash = current)) (fun _ ↦ next) s
  | passwordRetire subjectId retired, s =>
      Layout.put (L := layout) .passwordHistories subjectId
        (some (s.passwordHistory subjectId ++ [retired]))
  | trimPasswordHistory subjectId historyDepth, s =>
      Layout.put (L := layout) .passwordHistories subjectId
        (some ((newestFirst (s.passwordHistory subjectId)).take historyDepth))
  | deleteSecondFactors subjectId, s =>
      Layout.delete (L := layout) .secondFactors
        (fun _ row ↦ decide (row.subjectId = subjectId)) s
  | requiredActionAdd subjectId action, s =>
      Layout.insert (L := layout) .userRequiredActions (subjectId, action) () s
  | requiredActionComplete subjectId action, s =>
      Layout.delete (L := layout) .userRequiredActions
        (fun id _ ↦ decide (id = (subjectId, action))) s

/-- The methods that write rows of `action_tokens`. -/
def writesLinks : Op → Bool
  | actionTokenIssue .. | actionTokenConsume ..
  | actionTokenInvalidateOutstandingPasswordLinks .. => true
  | _ => false

end Op

/-- The tables and the repository methods on them. -/
abbrev database : Database where
  Key := layout.Key
  Cell := fun k ↦ Option (layout.Row k.1)
  Op := Op
  Answer := Op.Answer
  Answers := Op.Answers
  effect := Op.effect

/-- The answers of the methods, for schedules. -/
def oracle : Oracle database where
  answer := Op.answer
  reads := Op.reads
  right := fun op s a h ↦ by
    cases op with
    | holderOfEmail | deleteSecondFactors => simp [Op.answer] at h
    | _ => exact h
  effect_of_reads := fun op _ h ↦ by
    cases op <;> first | rfl | simp [Op.reads] at h

end Odudu.Account
