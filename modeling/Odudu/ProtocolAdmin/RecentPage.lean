import Odudu.Listings.Keyset
import Odudu.Outbox.SendLogouts
import Mathlib.Data.Prod.Lex

/-!
# Most-recent-first listings

The page of a listing ordered by time and then by id (`usecase/recent-page.ts`,
`service/cursor.ts`), and the listings built on it: mail (`usecase/mail.ts`), logout
deliveries (`usecase/logout-deliveries.ts`) and the audit trail (`usecase/audit.ts`, with the
statement of `domain-audit`'s `repository/audit.ts`), which packs its cursor itself.

A column keeps microseconds, and a `Date` read from it milliseconds.  The text a cursor is
packed into is left out, and so is what a listing makes of its rows for the wire: a cursor
is its payload beside the tag over it.
-/

set_option autoImplicit false

namespace Odudu.ProtocolAdmin.RecentPage

open Listings Outbox.SendLogouts

/-- A `uuid`, in the order of the database. -/
abbrev Uuid : Type := Fin (2 ^ 128)

/-- An instant as a column keeps it, in microseconds. -/
abbrev Timestamptz : Type := ℤ

/-- An instant as the application reads it, in milliseconds. -/
abbrev Date : Type := ℤ

def Timestamptz.toDate (t : Timestamptz) : Date := t / 1000

/-- `${date.toISOString()}::timestamptz` -/
def Date.toTimestamptz (date : Date) : Timestamptz := date * 1000

/-- Where a most-recent-first listing resumes: strictly older than this row. -/
structure RecentPosition where
  instant : Date
  id : Uuid
  deriving DecidableEq

structure CursorPayload where
  after : RecentPosition
  collection : String
  tenantId : String
  filters : String
  deriving DecidableEq

structure Cursor (Tag : Type) where
  payload : CursorPayload
  tag : Tag

/-- The filters a list was queried with, one left off or given. -/
abbrev Filters : Type := List (String × Option String)

structure IdPageRequest (Key Tag : Type) where
  collection : String
  tenantId : String
  filters : Filters
  limit : ℕ
  cursor : Option (Cursor Tag)
  cursorKey : Key

inductive IdPageOutcome (Tag T : Type) where
  | invalidCursor
  | ok (items : List T) (next : Option (Cursor Tag))

/-- What following a listing sees of a page. -/
def IdPageOutcome.page {Tag T : Type} : IdPageOutcome Tag T → Option (List T × Option (Cursor Tag))
  | invalidCursor => none
  | ok items next => some (items, next)

/-- The keyed hash over a payload, the digest of a list's filters, and the text of a date. -/
structure Sealing (Key Tag : Type) where
  tag : Key → CursorPayload → Tag
  filterDigest : Filters → String
  toISOString : Date → String

variable {Key Tag T : Type} [DecidableEq Tag] (sealing : Sealing Key Tag)

def encodeCursor (key : Key) (payload : CursorPayload) : Cursor Tag :=
  ⟨payload, sealing.tag key payload⟩

def decodeCursor (key : Key) (collection tenantId filters : String) (raw : Cursor Tag) :
    Option RecentPosition :=
  if raw.tag ≠ sealing.tag key raw.payload then none
  else if raw.payload.collection ≠ collection || raw.payload.tenantId ≠ tenantId ||
      raw.payload.filters ≠ filters then none
  else some raw.payload.after

/-- The position a request resumes from, if its cursor is one of this listing's. -/
def resumeBefore (request : IdPageRequest Key Tag) : Option (Option RecentPosition) :=
  match request.cursor with
  | none => some none
  | some raw => (decodeCursor sealing request.cursorKey request.collection request.tenantId
      (sealing.filterDigest request.filters) raw).map some

/-- `(createdAt, id) < before` -/
def olderThan (createdAt : Timestamptz) (id : Uuid) (before : RecentPosition) : Bool :=
  decide (toLex (createdAt, id) < toLex (Date.toTimestamptz before.instant, before.id))

/-- `SELECT ... WHERE ... ORDER BY createdAt DESC, id DESC LIMIT limit` -/
def selectRecent (createdAt : T → Timestamptz) (id : T → Uuid) (wanted : T → Bool)
    (before : Option RecentPosition) (limit : ℕ) (table : List T) : List T :=
  (descending (fun row ↦ toLex (createdAt row, id row)) (table.filter fun row ↦
    wanted row && before.all (olderThan (createdAt row) (id row)))).take limit

/-- `rows` fetched newest first with one row past `limit`, cut to a page and its cursor. -/
def recentPage (createdAt : T → Timestamptz) (id : T → Uuid) (request : IdPageRequest Key Tag)
    (rows : List T) : IdPageOutcome Tag T :=
  let hasMore := decide (request.limit < rows.length)
  let items := rows.take request.limit
  .ok items <| items.getLast?.bind fun last ↦
    if hasMore then
      some (encodeCursor sealing request.cursorKey
        { after := ⟨(createdAt last).toDate, id last⟩
          collection := request.collection
          tenantId := request.tenantId
          filters := sealing.filterDigest request.filters })
    else none

/-! ### Mail -/

inductive MailStatus where
  | sent
  | failed
  | retrying
  | queued

def MailStatus.text : MailStatus → String
  | sent => "sent"
  | failed => "failed"
  | retrying => "retrying"
  | queued => "queued"

/-- A row of `email_outbox`. -/
structure MailRow where
  id : Uuid
  createdAt : Timestamptz
  attempts : ℕ
  lastError : Option String
  sentAt : Option Timestamptz

structure ListMailInput (Key Tag : Type) where
  tenantId : String
  status : Option MailStatus
  /-- `ODUDU_OUTBOX_MAX_ATTEMPTS` -/
  maxAttempts : ℕ
  limit : ℕ
  cursor : Option (Cursor Tag)
  cursorKey : Key

def mailStatusCondition (status : MailStatus) (maxAttempts : ℕ) (row : MailRow) : Bool :=
  match status with
  | .sent => row.sentAt.isSome
  | .failed => row.sentAt.isNone && decide (maxAttempts ≤ row.attempts)
  | .retrying => row.sentAt.isNone && decide (row.attempts < maxAttempts) && row.lastError.isSome
  | .queued => row.sentAt.isNone && decide (row.attempts < maxAttempts) && row.lastError.isNone

/-- The rows a listing of mail is of. -/
def ListMailInput.wants (input : ListMailInput Key Tag) (row : MailRow) : Bool :=
  input.status.all fun status ↦ mailStatusCondition status input.maxAttempts row

def listMail (input : ListMailInput Key Tag) (table : List MailRow) : IdPageOutcome Tag MailRow :=
  let request : IdPageRequest Key Tag :=
    { collection := "mail"
      tenantId := input.tenantId
      filters := [("status", input.status.map MailStatus.text)]
      limit := input.limit
      cursor := input.cursor
      cursorKey := input.cursorKey }
  match resumeBefore sealing request with
  | none => .invalidCursor
  | some before =>
    recentPage sealing MailRow.createdAt MailRow.id request
      (selectRecent MailRow.createdAt MailRow.id input.wants before (input.limit + 1) table)

/-! ### Logout deliveries -/

inductive DeliveryStatus where
  | delivered
  | failed
  | pending

def DeliveryStatus.text : DeliveryStatus → String
  | delivered => "delivered"
  | failed => "failed"
  | pending => "pending"

/-- A row of `backchannel_logout_deliveries`. -/
structure DeliveryRow where
  id : Uuid
  clientId : String
  createdAt : Timestamptz
  attempts : ℕ
  deliveredAt : Option Timestamptz

structure ListLogoutDeliveriesInput (Key Tag : Type) where
  tenantId : String
  clientDbId : String
  status : Option DeliveryStatus
  limit : ℕ
  cursor : Option (Cursor Tag)
  cursorKey : Key

def deliveryStatusCondition (status : DeliveryStatus) (row : DeliveryRow) : Bool :=
  match status with
  | .delivered => row.deliveredAt.isSome
  | .failed => row.deliveredAt.isNone && decide (backchannelLogoutMaxAttempts ≤ row.attempts)
  | .pending => row.deliveredAt.isNone && decide (row.attempts < backchannelLogoutMaxAttempts)

/-- The rows a listing of deliveries is of. -/
def ListLogoutDeliveriesInput.wants (input : ListLogoutDeliveriesInput Key Tag)
    (row : DeliveryRow) : Bool :=
  decide (row.clientId = input.clientDbId) &&
    input.status.all fun status ↦ deliveryStatusCondition status row

/-- One client's deliveries, most recent first; nothing where there is no such client. -/
def listLogoutDeliveries (input : ListLogoutDeliveriesInput Key Tag) (clients : List String)
    (table : List DeliveryRow) : Option (IdPageOutcome Tag DeliveryRow) :=
  if input.clientDbId ∉ clients then none
  else
    let request : IdPageRequest Key Tag :=
      { collection := "logout-deliveries"
        tenantId := input.tenantId
        filters := [("client", some input.clientDbId), ("status", input.status.map DeliveryStatus.text)]
        limit := input.limit
        cursor := input.cursor
        cursorKey := input.cursorKey }
    match resumeBefore sealing request with
    | none => some .invalidCursor
    | some before =>
      some (recentPage sealing DeliveryRow.createdAt DeliveryRow.id request
        (selectRecent DeliveryRow.createdAt DeliveryRow.id input.wants before (input.limit + 1)
          table))

/-! ### The audit trail -/

inductive AuditOutcome where
  | allowed
  | refused
  | failed
  deriving DecidableEq

def AuditOutcome.text : AuditOutcome → String
  | allowed => "allowed"
  | refused => "refused"
  | failed => "failed"

/-- A row of `audit_events`. -/
structure AuditEventRecord where
  id : Uuid
  occurredAt : Timestamptz
  eventType : String
  action : String
  outcome : AuditOutcome
  actorSubjectId : Option String
  resourceType : Option String
  resourceId : Option String

/-- Which rows a listing, a count or an export of the trail reads. -/
structure AuditEventCriteria where
  eventType : Option String
  actorSubjectId : Option String
  resourceType : Option String
  resourceId : Option String
  action : Option String
  outcome : Option AuditOutcome
  fromDate : Option Date
  toDate : Option Date

/-- `criteriaConditions` -/
def AuditEventCriteria.holdsOf (criteria : AuditEventCriteria) (row : AuditEventRecord) : Bool :=
  criteria.eventType.all (row.eventType == ·) &&
    criteria.actorSubjectId.all (row.actorSubjectId == some ·) &&
    criteria.resourceType.all (row.resourceType == some ·) &&
    criteria.resourceId.all (row.resourceId == some ·) &&
    criteria.action.all (row.action == ·) &&
    criteria.outcome.all (row.outcome == ·) &&
    criteria.fromDate.all (fun date ↦ decide (Date.toTimestamptz date ≤ row.occurredAt)) &&
    criteria.toDate.all fun date ↦ decide (row.occurredAt ≤ Date.toTimestamptz date)

structure ListAuditInput (Key Tag : Type) extends AuditEventCriteria where
  tenantId : String
  limit : ℕ
  cursor : Option (Cursor Tag)
  cursorKey : Key

/-- `auditRepository(tx).list` -/
def auditList (criteria : AuditEventCriteria) (after : Option RecentPosition) (limit : ℕ)
    (table : List AuditEventRecord) : List AuditEventRecord :=
  selectRecent AuditEventRecord.occurredAt AuditEventRecord.id criteria.holdsOf after limit table

def listAudit (input : ListAuditInput Key Tag) (table : List AuditEventRecord) :
    IdPageOutcome Tag AuditEventRecord :=
  let filters := sealing.filterDigest
    [("event_type", input.eventType), ("actor_subject_id", input.actorSubjectId),
      ("resource_type", input.resourceType), ("resource_id", input.resourceId),
      ("action", input.action), ("outcome", input.outcome.map AuditOutcome.text),
      ("from", input.fromDate.map sealing.toISOString),
      ("to", input.toDate.map sealing.toISOString)]
  let after := match input.cursor with
    | none => some none
    | some raw => (decodeCursor sealing input.cursorKey "audit" input.tenantId filters raw).map some
  match after with
  | none => .invalidCursor
  | some after =>
    let rows := auditList input.toAuditEventCriteria after (input.limit + 1) table
    let page := rows.take input.limit
    let hasMore := decide (input.limit < rows.length)
    .ok page <| page.getLast?.bind fun last ↦
      if hasMore then
        some (encodeCursor sealing input.cursorKey
          { after := ⟨Timestamptz.toDate last.occurredAt, last.id⟩
            collection := "audit"
            tenantId := input.tenantId
            filters })
      else none

end Odudu.ProtocolAdmin.RecentPage
