import Odudu.ProtocolAdmin.RecentPage

/-!
# What recent listings visit

A listing that follows its cursors resumes each page below its last row's time cut to the
millisecond, so it is a listing by key (`Lister`), and visits every row once exactly when no
page ends in front of a row of the same millisecond at or after that instant
(`recent_listings_visit_once_iff`).
-/

set_option autoImplicit false

namespace Odudu.ProtocolAdmin.RecentPage

open Listings

variable {Key Tag T : Type} [DecidableEq Tag] (sealing : Sealing Key Tag)

/-- The order of a listing. -/
abbrev recency (createdAt : T → Timestamptz) (id : T → Uuid) (row : T) : Timestamptz ×ₗ Uuid :=
  toLex (createdAt row, id row)

/-- The position that the cursor of a row resumes from: its time cut to the millisecond. -/
def resumedFrom (position : Timestamptz ×ₗ Uuid) : Timestamptz ×ₗ Uuid :=
  toLex (Date.toTimestamptz (Timestamptz.toDate (ofLex position).1), (ofLex position).2)

theorem resumedFrom_le (position : Timestamptz ×ₗ Uuid) : resumedFrom position ≤ position := by
  have hle : Date.toTimestamptz (Timestamptz.toDate (ofLex position).1) ≤ (ofLex position).1 := by
    exact Int.ediv_mul_le _ (by decide)
  rcases lt_or_eq_of_le hle with hlt | heq
  · exact Prod.Lex.le_iff.mpr (Or.inl hlt)
  · exact Prod.Lex.le_iff.mpr (Or.inr ⟨heq, le_rfl⟩)

section Pages

variable {createdAt : T → Timestamptz} {id : T → Uuid} {wanted : T → Bool} {limit : ℕ}
  {cursor : T → Cursor Tag} {table : List T}

omit [DecidableEq Tag] in
/-- What a listing makes of the rows it fetched, one past its limit at most, is their cut. -/
theorem cut_take (rows : List T) (limit : ℕ) (cursor : T → Cursor Tag) :
    ((rows.take (limit + 1)).take limit,
      ((rows.take (limit + 1)).take limit).getLast?.bind fun last ↦
        if decide (limit < (rows.take (limit + 1)).length) then some (cursor last) else none) =
      cut limit cursor rows := by
  have htake : (rows.take (limit + 1)).take limit = rows.take limit := by
    rw [List.take_take, Nat.min_eq_left (Nat.le_succ limit)]
  have hlength : limit < (rows.take (limit + 1)).length ↔ limit < rows.length := by
    rw [List.length_take]
    omega
  simp only [htake, hlength, cut]
  by_cases hmore : limit < rows.length
  · cases (rows.take limit).getLast? <;> simp [hmore]
  · cases (rows.take limit).getLast? <;> simp [hmore]

theorem keys_nodup (hids : (table.map id).Nodup) (wanted : T → Bool) :
    ((table.filter wanted).map (recency createdAt id)).Nodup := by
  refine List.Nodup.of_map (fun position ↦ (ofLex position).2) ?_
  rw [List.map_map]
  exact hids.sublist (List.filter_sublist.map id)

/-- The rows that are fetched, in the order of the listing, are the newest of those wanted
that are older than where it resumes. -/
theorem selectRecent_eq (hids : (table.map id).Nodup) (before : Option RecentPosition) :
    selectRecent createdAt id wanted before limit table =
      ((descending (recency createdAt id) (table.filter wanted)).filter fun row ↦
        before.all (olderThan (createdAt row) (id row))).take limit := by
  rw [← descending_filter (keys_nodup hids _), List.filter_filter]
  simp only [selectRecent, Bool.and_comm]

/-- The cursor of a row, for the next page of a request. -/
def cursorAfter (createdAt : T → Timestamptz) (id : T → Uuid) (key : Key)
    (collection tenantId filters : String) (row : T) : Cursor Tag :=
  encodeCursor sealing key ⟨⟨(createdAt row).toDate, id row⟩, collection, tenantId, filters⟩

theorem decodeCursor_cursorAfter (key : Key) (collection tenantId filters : String) (row : T) :
    decodeCursor sealing key collection tenantId filters
      (cursorAfter sealing createdAt id key collection tenantId filters row) =
        some ⟨(createdAt row).toDate, id row⟩ := by
  simp [decodeCursor, cursorAfter, encodeCursor]

/-- Older than a row's cursor is below the position it resumes from. -/
theorem all_olderThan_eq (row r : T) :
    (some ⟨(createdAt row).toDate, id row⟩ : Option RecentPosition).all
        (olderThan (createdAt r) (id r)) =
      decide (recency createdAt id r < resumedFrom (recency createdAt id row)) :=
  rfl

omit [DecidableEq Tag] in
/-- A page of a most-recent-first listing is a cut of the rows that are left. -/
theorem page_recentPage (hids : (table.map id).Nodup) (request : IdPageRequest Key Tag)
    (before : Option RecentPosition) :
    (recentPage sealing createdAt id request
        (selectRecent createdAt id wanted before (request.limit + 1) table)).page =
      some (cut request.limit
        (cursorAfter sealing createdAt id request.cursorKey request.collection request.tenantId
          (sealing.filterDigest request.filters))
        ((descending (recency createdAt id) (table.filter wanted)).filter fun row ↦
          before.all (olderThan (createdAt row) (id row)))) := by
  rw [selectRecent_eq hids, ← cut_take]
  rfl

end Pages

/-- A listing of mail is one by key. -/
theorem lister_listMail (input : ListMailInput Key Tag) {table : List MailRow}
    (hids : (table.map MailRow.id).Nodup) :
    Lister (recency MailRow.createdAt MailRow.id) input.limit resumedFrom
      (cursorAfter sealing MailRow.createdAt MailRow.id input.cursorKey "mail" input.tenantId
        (sealing.filterDigest [("status", input.status.map MailStatus.text)]))
      (table.filter input.wants)
      (fun cursor ↦ (listMail sealing { input with cursor } table).page) where
  first := by
    simp only [listMail, resumeBefore]
    rw [page_recentPage sealing hids]
    simp only [Option.all_none, List.filter_true]
    rfl
  resumed := by
    intro row
    simp only [listMail, resumeBefore, decodeCursor_cursorAfter, Option.map_some]
    rw [page_recentPage sealing hids]
    simp only [all_olderThan_eq]
    rfl

/-- What following a client's deliveries sees of a page, nothing where there is no client. -/
def deliveriesPage (input : ListLogoutDeliveriesInput Key Tag) (clients : List String)
    (table : List DeliveryRow) : Option (List DeliveryRow × Option (Cursor Tag)) :=
  (listLogoutDeliveries sealing input clients table).bind IdPageOutcome.page

theorem lister_listLogoutDeliveries (input : ListLogoutDeliveriesInput Key Tag)
    {clients : List String} {table : List DeliveryRow} (hclient : input.clientDbId ∈ clients)
    (hids : (table.map DeliveryRow.id).Nodup) :
    Lister (recency DeliveryRow.createdAt DeliveryRow.id) input.limit resumedFrom
      (cursorAfter sealing DeliveryRow.createdAt DeliveryRow.id input.cursorKey
        "logout-deliveries" input.tenantId (sealing.filterDigest
          [("client", some input.clientDbId), ("status", input.status.map DeliveryStatus.text)]))
      (table.filter input.wants)
      (fun cursor ↦ deliveriesPage sealing { input with cursor } clients table) where
  first := by
    simp only [deliveriesPage, listLogoutDeliveries, resumeBefore, hclient, not_true, if_false,
      Option.bind_some]
    rw [page_recentPage sealing hids]
    simp only [Option.all_none, List.filter_true]
    rfl
  resumed := by
    intro row
    simp only [deliveriesPage, listLogoutDeliveries, resumeBefore, hclient, not_true, if_false,
      decodeCursor_cursorAfter, Option.map_some, Option.bind_some]
    rw [page_recentPage sealing hids]
    simp only [all_olderThan_eq]
    rfl

/-- What the audit trail's filters are digested from. -/
def auditFilters (input : ListAuditInput Key Tag) : Filters :=
  [("event_type", input.eventType), ("actor_subject_id", input.actorSubjectId),
    ("resource_type", input.resourceType), ("resource_id", input.resourceId),
    ("action", input.action), ("outcome", input.outcome.map AuditOutcome.text),
    ("from", input.fromDate.map sealing.toISOString), ("to", input.toDate.map sealing.toISOString)]

/-- The trail packs and unpacks its cursors as the other listings do theirs. -/
theorem listAudit_eq (input : ListAuditInput Key Tag) (table : List AuditEventRecord) :
    listAudit sealing input table =
      match resumeBefore sealing ⟨"audit", input.tenantId, auditFilters sealing input, input.limit,
        input.cursor, input.cursorKey⟩ with
      | none => .invalidCursor
      | some before => recentPage sealing AuditEventRecord.occurredAt AuditEventRecord.id
          ⟨"audit", input.tenantId, auditFilters sealing input, input.limit, input.cursor,
            input.cursorKey⟩
          (selectRecent AuditEventRecord.occurredAt AuditEventRecord.id
            input.toAuditEventCriteria.holdsOf before (input.limit + 1) table) := by
  cases hcursor : input.cursor <;> simp only [listAudit, resumeBefore, hcursor] <;> rfl

theorem lister_listAudit (input : ListAuditInput Key Tag) {table : List AuditEventRecord}
    (hids : (table.map AuditEventRecord.id).Nodup) :
    Lister (recency AuditEventRecord.occurredAt AuditEventRecord.id) input.limit resumedFrom
      (cursorAfter sealing AuditEventRecord.occurredAt AuditEventRecord.id input.cursorKey "audit"
        input.tenantId (sealing.filterDigest (auditFilters sealing input)))
      (table.filter input.toAuditEventCriteria.holdsOf)
      (fun cursor ↦ (listAudit sealing { input with cursor } table).page) where
  first := by
    simp only [listAudit_eq, resumeBefore]
    rw [page_recentPage sealing hids]
    simp only [Option.all_none, List.filter_true]
    rfl
  resumed := by
    intro row
    have hdecoded : resumeBefore sealing ⟨"audit", input.tenantId, auditFilters sealing input,
        input.limit, some (cursorAfter sealing AuditEventRecord.occurredAt AuditEventRecord.id
          input.cursorKey "audit" input.tenantId
          (sealing.filterDigest (auditFilters sealing input)) row), input.cursorKey⟩ =
        some (some ⟨Timestamptz.toDate row.occurredAt, row.id⟩) := by
      simp only [resumeBefore, decodeCursor_cursorAfter, Option.map_some]
    have hfilters (cursor : Option (Cursor Tag)) :
        auditFilters sealing { input with cursor } = auditFilters sealing input := rfl
    simp only [listAudit_eq, hfilters, hdecoded]
    rw [page_recentPage sealing hids]
    simp only [all_olderThan_eq]

/-- Each most-recent-first listing visits every row it is of exactly once, newest first, and
comes to an end, if and only if no page ends in front of a row that lies at or after the time
of the page's last row cut to the millisecond. -/
theorem recent_listings_visit_once_iff :
    (∀ (input : ListMailInput Key Tag) (table : List MailRow), 0 < input.limit →
      (table.map MailRow.id).Nodup →
      (VisitsOnce (recency MailRow.createdAt MailRow.id)
          (fun cursor ↦ (listMail sealing { input with cursor } table).page)
          (table.filter input.wants) ↔
        BoundariesClear (recency MailRow.createdAt MailRow.id) input.limit resumedFrom
          (descending (recency MailRow.createdAt MailRow.id) (table.filter input.wants)))) ∧
    (∀ (input : ListLogoutDeliveriesInput Key Tag) (clients : List String)
      (table : List DeliveryRow), 0 < input.limit → input.clientDbId ∈ clients →
      (table.map DeliveryRow.id).Nodup →
      (VisitsOnce (recency DeliveryRow.createdAt DeliveryRow.id)
          (fun cursor ↦ deliveriesPage sealing { input with cursor } clients table)
          (table.filter input.wants) ↔
        BoundariesClear (recency DeliveryRow.createdAt DeliveryRow.id) input.limit resumedFrom
          (descending (recency DeliveryRow.createdAt DeliveryRow.id)
            (table.filter input.wants)))) ∧
    ∀ (input : ListAuditInput Key Tag) (table : List AuditEventRecord), 0 < input.limit →
      (table.map AuditEventRecord.id).Nodup →
      (VisitsOnce (recency AuditEventRecord.occurredAt AuditEventRecord.id)
          (fun cursor ↦ (listAudit sealing { input with cursor } table).page)
          (table.filter input.toAuditEventCriteria.holdsOf) ↔
        BoundariesClear (recency AuditEventRecord.occurredAt AuditEventRecord.id) input.limit
          resumedFrom (descending (recency AuditEventRecord.occurredAt AuditEventRecord.id)
            (table.filter input.toAuditEventCriteria.holdsOf))) := by
  refine ⟨fun input table hlimit hids ↦ ?_, fun input clients table hlimit hclient hids ↦ ?_,
    fun input table hlimit hids ↦ ?_⟩
  · exact (lister_listMail sealing input hids).visitsOnce_iff hlimit resumedFrom_le
      (keys_nodup hids _)
  · exact (lister_listLogoutDeliveries sealing input hclient hids).visitsOnce_iff hlimit
      resumedFrom_le (keys_nodup hids _)
  · exact (lister_listAudit sealing input hids).visitsOnce_iff hlimit resumedFrom_le
      (keys_nodup hids _)

/-- Cursors that carry their payload for a tag. -/
def plainSealing : Sealing Unit CursorPayload where
  tag := fun _ payload ↦ payload
  filterDigest := fun _ ↦ ""
  toISOString := fun _ ↦ ""

/-- Every message, one to a page. -/
def oneByOne : ListMailInput Unit CursorPayload where
  tenantId := "tenant"
  status := none
  maxAttempts := 5
  limit := 1
  cursor := none
  cursorKey := ()

/-- A message that waits to be sent. -/
def queuedMail (id : Uuid) (createdAt : Timestamptz) : MailRow := ⟨id, createdAt, 0, none, none⟩

private theorem descending_two {older newer : MailRow}
    (h : recency MailRow.createdAt MailRow.id older < recency MailRow.createdAt MailRow.id newer) :
    descending (recency MailRow.createdAt MailRow.id) ([older, newer].filter oneByOne.wants) =
      [newer, older] := by
  have hids : ([older, newer].map (recency MailRow.createdAt MailRow.id)).Nodup := by
    simpa using h.ne
  have hwants : [older, newer].filter oneByOne.wants = [older, newer] := rfl
  rw [hwants]
  refine (descending_descends hids).eq_of_perm ?_ ((descending_perm _).trans (List.Perm.swap ..))
  simpa using h

/-- Two messages queued by one transaction, half a millisecond past the epoch: the second page
passes the older by. -/
theorem listMail_skips :
    ¬VisitsOnce (recency MailRow.createdAt MailRow.id)
      (fun cursor ↦
        (listMail plainSealing { oneByOne with cursor } [queuedMail 1 500, queuedMail 2 500]).page)
      ([queuedMail 1 500, queuedMail 2 500].filter oneByOne.wants) := by
  have hids : ([queuedMail 1 500, queuedMail 2 500].map MailRow.id).Nodup := by decide
  rw [(lister_listMail plainSealing oneByOne hids).visitsOnce_iff (by decide) resumedFrom_le
    (keys_nodup hids _), descending_two (by decide)]
  intro hclear
  have hbelow := hclear 0 (queuedMail 2 500) (queuedMail 1 500) rfl rfl (by decide)
  exact absurd hbelow (by decide)

/-- A millisecond apart, each message has its page. -/
theorem recent_listings_visit_once_apart :
    VisitsOnce (recency MailRow.createdAt MailRow.id)
      (fun cursor ↦
        (listMail plainSealing { oneByOne with cursor } [queuedMail 1 1500, queuedMail 2 2500]).page)
      ([queuedMail 1 1500, queuedMail 2 2500].filter oneByOne.wants) := by
  refine ((recent_listings_visit_once_iff plainSealing).1 oneByOne _ (by decide)
    (by decide)).mpr ?_
  rw [descending_two (by decide)]
  intro i last next hlast hnext _
  match i with
  | 0 =>
    obtain rfl : queuedMail 2 2500 = last := by simpa using hlast
    obtain rfl : queuedMail 1 1500 = next := by simpa using hnext
    decide
  | i + 1 => simp at hnext

end Odudu.ProtocolAdmin.RecentPage
