import Odudu.Texts.ParseJson

/-!
# The `claims` parameter

`service/claims-request.ts` reads the parameter, with the schema's own reading of a member and
of an entry, and `claimsParameter` of `service/restart-request.ts` writes what was read as a
parameter again.  What is written is read back as it was (`parse_claimsParameter`).

A member is kept with its names in the order they came in; no two are the same, and none is
`__proto__`, which the schema leaves out.
-/

set_option autoImplicit false

namespace Odudu.ProtocolOidc

open Texts

/-! ### What is asked for -/

structure ClaimRequestEntry where
  essential : Bool
  value : Option Utf16
  values : Option (List Utf16)

def PROTO : Utf16 := ofAscii "__proto__"

/-- `ClaimsRequestMember` -/
@[ext] structure ClaimsRequestMember where
  entries : List (Utf16 × ClaimRequestEntry)
  nodup : (entries.map Prod.fst).Nodup
  noProto : PROTO ∉ entries.map Prod.fst

namespace ClaimsRequestMember

def empty : ClaimsRequestMember := ⟨[], by simp, by simp⟩

def named? (member : ClaimsRequestMember) (name : Utf16) : Option ClaimRequestEntry :=
  member.entries.lookup name

/-- An entry is set. -/
def put (member : ClaimsRequestMember) (name : Utf16) (hname : name ≠ PROTO)
    (entry : ClaimRequestEntry) : ClaimsRequestMember where
  entries := putEntry member.entries (name, entry)
  nodup := nodup_putEntry member.nodup _
  noProto := by
    rw [names_putEntry_eq]
    split
    · exact member.noProto
    · simpa using ⟨fun x hx ↦ member.noProto (List.mem_map_of_mem hx), hname.symm⟩

end ClaimsRequestMember

structure ClaimsRequest where
  idToken : ClaimsRequestMember
  userinfo : ClaimsRequestMember

/-- `EMPTY_CLAIMS_REQUEST` -/
def ClaimsRequest.empty : ClaimsRequest := ⟨.empty, .empty⟩

/-! ### Reading the parameter -/

def MAX_CLAIMS_PARAMETER_BYTES : ℕ := 8192

/-- An entry as the schema passes it. -/
structure ParsedEntry where
  essential : Option Bool
  value : Option Utf16
  values : Option (List Utf16)

def readBoolean : Parsed → Option Bool
  | .bool b => some b
  | _ => none

def readText : Parsed → Option Utf16
  | .string text => some text
  | _ => none

def readTexts : Parsed → Option (List Utf16)
  | .array items => items.mapM readText
  | _ => none

/-- A property that may be left out. -/
def optionalProperty {α : Type} (read : Parsed → Option α) (members : List (Utf16 × Parsed))
    (name : Utf16) : Option (Option α) :=
  match members.lookup name with
  | none => some none
  | some value => (read value).map some

/-- `claimEntrySchema`: an object of three properties, or null. -/
def claimEntrySchema : Parsed → Option (Option ParsedEntry)
  | .null => some none
  | .object members =>
    (optionalProperty readBoolean members (ofAscii "essential")).bind fun essential ↦
      (optionalProperty readText members (ofAscii "value")).bind fun value ↦
        (optionalProperty readTexts members (ofAscii "values")).map fun values ↦
          some ⟨essential, value, values⟩
  | _ => none

/-- `z.record(z.string(), claimEntrySchema)` -/
def claimsMemberSchema : Parsed → Option (List (Utf16 × Option ParsedEntry))
  | .object members => (members.filter fun entry ↦ entry.1 ≠ PROTO).mapM fun entry ↦
    (claimEntrySchema entry.2).map fun parsed ↦ (entry.1, parsed)
  | _ => none

/-- What the schema passes of the whole. -/
structure ParsedClaims where
  idToken : Option (List (Utf16 × Option ParsedEntry))
  userinfo : Option (List (Utf16 × Option ParsedEntry))

def claimsRequestSchema : Parsed → Option ParsedClaims
  | .object members =>
    (optionalProperty claimsMemberSchema members (ofAscii "id_token")).bind fun idToken ↦
      (optionalProperty claimsMemberSchema members (ofAscii "userinfo")).map fun userinfo ↦
        ⟨idToken, userinfo⟩
  | _ => none

def toEntry : Option ParsedEntry → ClaimRequestEntry
  | none => ⟨false, none, none⟩
  | some entry => ⟨entry.essential.getD false, entry.value, entry.values⟩

/-- The assignment to `__proto__` sets no property of its own. -/
def toMember : Option (List (Utf16 × Option ParsedEntry)) → ClaimsRequestMember
  | none => .empty
  | some member =>
    let named := (member.filter fun entry ↦ entry.1 ≠ PROTO).map fun entry ↦
      (entry.1, toEntry entry.2)
    { entries := fromEntries named
      nodup := nodup_fromEntries named
      noProto := by
        intro hmem
        obtain ⟨entry, hentry, hname⟩ := List.mem_map.mp hmem
        obtain ⟨other, hother, rfl⟩ := List.mem_map.mp (mem_of_fromEntries hentry)
        exact of_decide_eq_true (List.mem_filter.mp hother).2 hname }

inductive ClaimsRefusal where
  | tooLarge
  | invalidJson
  | invalidShape

inductive ClaimsRequestOutcome where
  | ok (request : ClaimsRequest)
  | invalid (reason : ClaimsRefusal)

def parseClaimsRequest (raw : Option Utf16) : ClaimsRequestOutcome :=
  match raw with
  | none => .ok .empty
  | some raw =>
    if MAX_CLAIMS_PARAMETER_BYTES < byteLength raw then .invalid .tooLarge
    else
      match parseJson raw with
      | none => .invalid .invalidJson
      | some parsed =>
        match claimsRequestSchema parsed with
        | none => .invalid .invalidShape
        | some data => .ok ⟨toMember data.idToken, toMember data.userinfo⟩

/-! ### Writing the parameter -/

/-- A property that is written when it is there. -/
def written {α : Type} (name : String) (record : α → Record) : Option α → List (Utf16 × Record)
  | none => []
  | some value => [(ofAscii name, record value)]

def textsRecord (texts : List Utf16) : Record := .array (texts.map .string)

def entryProperties (essential : Option Bool) (value : Option Utf16)
    (values : Option (List Utf16)) : List (Utf16 × Record) :=
  written "essential" .bool essential ++
    (written "value" .string value ++ (written "values" textsRecord values ++ []))

def entryRecord (entry : ClaimRequestEntry) : Record :=
  if !entry.essential && entry.value.isNone && entry.values.isNone then .null
  else
    .object (entryProperties (if entry.essential then some true else none) entry.value
      entry.values)

def memberRecord (member : ClaimsRequestMember) : List (Utf16 × Record) :=
  member.entries.map fun entry ↦ (entry.1, entryRecord entry.2)

/-- A member that is written when it has entries. -/
def writtenMember (name : String) (member : ClaimsRequestMember) : List (Utf16 × Record) :=
  if member.entries.isEmpty then [] else [(ofAscii name, .object (memberRecord member))]

def claimsRecord (claims : ClaimsRequest) : Record :=
  .object (writtenMember "id_token" claims.idToken ++ writtenMember "userinfo" claims.userinfo)

/-- The parameter, empty where nothing is asked for; nothing where it would be too long. -/
def claimsParameter (claims : ClaimsRequest) : Option Utf16 :=
  if claims.idToken.entries.isEmpty && claims.userinfo.entries.isEmpty then some []
  else if MAX_CLAIMS_PARAMETER_BYTES < byteLength (stringify (claimsRecord claims)) then none
  else some (stringify (claimsRecord claims))

/-! ### What is written is read back -/

theorem mapM_of_forall {α β : Type} {read : α → Option β} {value : α → β} {items : List α}
    (h : ∀ item ∈ items, read item = some (value item)) :
    items.mapM read = some (items.map value) := by
  induction items with
  | nil => rfl
  | cons item _ ih =>
    rw [List.mapM_cons, h item List.mem_cons_self,
      ih fun other hother ↦ h other (List.mem_cons_of_mem _ hother)]
    rfl

theorem parsedItems_eq (items : List Record) : parsedItems items = items.map Record.parsed := by
  induction items with
  | nil => rw [parsedItems, List.map_nil]
  | cons _ _ ih => rw [parsedItems, ih, List.map_cons]

theorem parsedMembers_eq (members : List (Utf16 × Record)) :
    parsedMembers members = members.map fun member ↦ (member.1, member.2.parsed) := by
  induction members with
  | nil => rw [parsedMembers, List.map_nil]
  | cons _ _ ih => rw [parsedMembers, ih, List.map_cons]

theorem parsed_object {members : List (Utf16 × Record)} (h : (members.map Prod.fst).Nodup) :
    (Record.object members).parsed =
      .object (members.map fun member ↦ (member.1, member.2.parsed)) := by
  rw [Record.parsed, parsedMembers_eq, fromEntries_of_nodup]
  rwa [List.map_map]

theorem readBoolean_parsed (b : Bool) : readBoolean (Record.bool b).parsed = some b := by
  rw [Record.parsed]
  rfl

theorem readText_parsed (text : Utf16) : readText (Record.string text).parsed = some text := by
  rw [Record.parsed]
  rfl

theorem readTexts_parsed (texts : List Utf16) :
    readTexts (textsRecord texts).parsed = some texts := by
  rw [textsRecord, Record.parsed, parsedItems_eq, List.map_map, readTexts, List.mapM_map]
  exact (mapM_of_forall fun text _ ↦ readText_parsed text).trans (congrArg some (List.map_id texts))

/-! Properties that are written -/

/-- A property as it is read back. -/
def readBack (member : Utf16 × Record) : Utf16 × Parsed := (member.1, member.2.parsed)

section Written

variable {α : Type} {name : String} {record : α → Record} {value : Option α}
  {rest : List (Utf16 × Record)}

theorem lookup_written_of_ne {other : Utf16} (h : other ≠ ofAscii name) :
    ((written name record value ++ rest).map readBack).lookup other =
      (rest.map readBack).lookup other := by
  cases value with
  | none => rfl
  | some => simp [written, readBack, List.lookup_cons, beq_eq_false_iff_ne.mpr h]

theorem optionalProperty_written {read : Parsed → Option α}
    (hread : ∀ value, read (record value).parsed = some value)
    (hrest : (rest.map readBack).lookup (ofAscii name) = none) :
    optionalProperty read ((written name record value ++ rest).map readBack) (ofAscii name) =
      some value := by
  cases value with
  | none => simp [optionalProperty, written, hrest]
  | some => simp [optionalProperty, written, readBack, hread]

theorem names_written : ((written name record value).map Prod.fst).Sublist [ofAscii name] := by
  cases value with
  | none => exact List.nil_sublist _
  | some => exact List.Sublist.refl _

end Written

theorem optionalProperty_of_lookup {α : Type} {read : Parsed → Option α}
    {members members' : List (Utf16 × Parsed)} {name : Utf16}
    (h : members.lookup name = members'.lookup name) :
    optionalProperty read members name = optionalProperty read members' name := by
  rw [optionalProperty, optionalProperty, h]

/-- The three properties of an entry are read back. -/
theorem claimEntrySchema_properties (essential : Option Bool) (value : Option Utf16)
    (values : Option (List Utf16)) :
    claimEntrySchema (Record.object (entryProperties essential value values)).parsed =
      some (some ⟨essential, value, values⟩) := by
  have hvalue : ofAscii "value" ≠ ofAscii "essential" := by decide
  have hvalues : ofAscii "values" ≠ ofAscii "essential" := by decide
  have hother : ofAscii "values" ≠ ofAscii "value" := by decide
  have hnodup : ((entryProperties essential value values).map Prod.fst).Nodup := by
    simp only [entryProperties, List.map_append, List.append_nil]
    refine List.Nodup.sublist (names_written.append (names_written.append names_written)) ?_
    decide
  have hfirst : optionalProperty readBoolean
      ((entryProperties essential value values).map readBack) (ofAscii "essential") =
        some essential := by
    refine optionalProperty_written readBoolean_parsed ?_
    rw [lookup_written_of_ne hvalue.symm, lookup_written_of_ne hvalues.symm]
    rfl
  have hsecond : optionalProperty readText
      ((entryProperties essential value values).map readBack) (ofAscii "value") = some value := by
    refine (optionalProperty_of_lookup (lookup_written_of_ne hvalue)).trans ?_
    refine optionalProperty_written readText_parsed ?_
    rw [lookup_written_of_ne hother.symm]
    rfl
  have hthird : optionalProperty readTexts
      ((entryProperties essential value values).map readBack) (ofAscii "values") =
        some values := by
    refine (optionalProperty_of_lookup (lookup_written_of_ne hvalues)).trans ?_
    refine (optionalProperty_of_lookup (lookup_written_of_ne hother)).trans ?_
    exact optionalProperty_written readTexts_parsed rfl
  rw [parsed_object hnodup]
  change ((optionalProperty readBoolean ((entryProperties essential value values).map readBack)
    (ofAscii "essential")).bind _) = _
  rw [hfirst]
  change ((optionalProperty readText ((entryProperties essential value values).map readBack)
    (ofAscii "value")).bind _) = _
  rw [hsecond]
  change (optionalProperty readTexts ((entryProperties essential value values).map readBack)
    (ofAscii "values")).map _ = _
  rw [hthird]
  rfl

/-- An entry is read back. -/
theorem toEntry_schema (entry : ClaimRequestEntry) :
    ∃ parsed, claimEntrySchema (entryRecord entry).parsed = some parsed ∧
      toEntry parsed = entry := by
  obtain ⟨essential, value, values⟩ := entry
  unfold entryRecord
  split
  case isTrue hnothing =>
    simp only [Bool.and_eq_true, Bool.not_eq_true', Option.isNone_iff_eq_none] at hnothing
    obtain ⟨⟨rfl, rfl⟩, rfl⟩ := hnothing
    exact ⟨none, by rw [Record.parsed]; rfl, rfl⟩
  case isFalse =>
    refine ⟨_, claimEntrySchema_properties _ _ _, ?_⟩
    cases essential <;> rfl

/-! Members -/

theorem nodup_memberRecord (member : ClaimsRequestMember) :
    ((memberRecord member).map Prod.fst).Nodup := by
  rw [memberRecord, List.map_map]
  exact member.nodup

/-- A member is read back. -/
theorem toMember_schema (member : ClaimsRequestMember) :
    ∃ parsed, claimsMemberSchema (Record.object (memberRecord member)).parsed = some parsed ∧
      toMember (some parsed) = member := by
  choose parsed hparsed hback using fun entry : Utf16 × ClaimRequestEntry ↦ toEntry_schema entry.2
  have hproto : ∀ entry ∈ member.entries, entry.1 ≠ PROTO :=
    fun entry hentry heq ↦ member.noProto (heq ▸ List.mem_map_of_mem hentry)
  refine ⟨member.entries.map fun entry ↦ (entry.1, parsed entry), ?_, ?_⟩
  · rw [parsed_object (nodup_memberRecord member), memberRecord, List.map_map, claimsMemberSchema]
    have hfilter : (member.entries.map ((fun member : Utf16 × Record ↦
        (member.1, member.2.parsed)) ∘ fun entry ↦ (entry.1, entryRecord entry.2))).filter
          (fun entry ↦ entry.1 ≠ PROTO) =
        member.entries.map fun entry ↦ (entry.1, (entryRecord entry.2).parsed) := by
      refine List.filter_eq_self.mpr fun entry hentry ↦ ?_
      obtain ⟨other, hother, rfl⟩ := List.mem_map.mp hentry
      exact decide_eq_true (hproto other hother)
    rw [hfilter, List.mapM_map]
    exact mapM_of_forall fun entry _ ↦ by simp [hparsed]
  · have hfilter : (member.entries.map fun entry ↦ (entry.1, parsed entry)).filter
        (fun entry ↦ entry.1 ≠ PROTO) = member.entries.map fun entry ↦ (entry.1, parsed entry) := by
      refine List.filter_eq_self.mpr fun entry hentry ↦ ?_
      obtain ⟨other, hother, rfl⟩ := List.mem_map.mp hentry
      exact decide_eq_true (hproto other hother)
    have hentries : (member.entries.map fun entry ↦ (entry.1, parsed entry)).map
        (fun entry ↦ (entry.1, toEntry entry.2)) = member.entries := by
      have hpair : ∀ entry : Utf16 × ClaimRequestEntry,
          (entry.1, toEntry (parsed entry)) = entry := fun entry ↦ Prod.ext rfl (hback entry)
      rw [List.map_map]
      exact List.map_id'' hpair member.entries
    ext1
    simp only [toMember]
    rw [hfilter, hentries, fromEntries_of_nodup member.nodup]

/-- A member that is written when it has entries is read back. -/
theorem optionalMember_written {name : String} (member : ClaimsRequestMember)
    {rest : List (Utf16 × Record)} (hrest : (rest.map readBack).lookup (ofAscii name) = none) :
    ∃ parsed, optionalProperty claimsMemberSchema
        ((writtenMember name member ++ rest).map readBack) (ofAscii name) = some parsed ∧
      toMember parsed = member := by
  unfold writtenMember
  by_cases hempty : member.entries.isEmpty = true
  · refine ⟨none, ?_, ?_⟩
    · rw [if_pos hempty]
      simp [optionalProperty, hrest]
    · ext1
      exact (List.isEmpty_iff.mp hempty).symm
  · obtain ⟨parsed, hparsed, hmember⟩ := toMember_schema member
    refine ⟨some parsed, ?_, hmember⟩
    rw [if_neg hempty]
    simp [optionalProperty, readBack, hparsed]

variable {member : ClaimsRequestMember}

theorem lookup_writtenMember_of_ne {name : String}
    {rest : List (Utf16 × Record)} {other : Utf16} (h : other ≠ ofAscii name) :
    ((writtenMember name member ++ rest).map readBack).lookup other =
      (rest.map readBack).lookup other := by
  unfold writtenMember
  split
  · rfl
  · simp [readBack, List.lookup_cons, beq_eq_false_iff_ne.mpr h]

theorem names_writtenMember {name : String} :
    ((writtenMember name member).map Prod.fst).Sublist [ofAscii name] := by
  unfold writtenMember
  split
  · exact List.nil_sublist _
  · exact List.Sublist.refl _

/-- The whole is read back. -/
theorem claimsRequestSchema_record (claims : ClaimsRequest) :
    ∃ data, claimsRequestSchema (claimsRecord claims).parsed = some data ∧
      toMember data.idToken = claims.idToken ∧ toMember data.userinfo = claims.userinfo := by
  have hne : ofAscii "userinfo" ≠ ofAscii "id_token" := by decide
  have hnodup : ((writtenMember "id_token" claims.idToken ++
      (writtenMember "userinfo" claims.userinfo ++ [])).map Prod.fst).Nodup := by
    simp only [List.map_append, List.append_nil]
    refine List.Nodup.sublist (names_writtenMember.append names_writtenMember) ?_
    decide
  have hempty : (([] : List (Utf16 × Record)).map readBack).lookup (ofAscii "userinfo") = none :=
    rfl
  obtain ⟨userinfo, huserinfo, hsecond⟩ := optionalMember_written claims.userinfo hempty
  have hrest : ((writtenMember "userinfo" claims.userinfo ++ []).map readBack).lookup
      (ofAscii "id_token") = none := (lookup_writtenMember_of_ne hne.symm).trans rfl
  obtain ⟨idToken, hidToken, hfirst⟩ := optionalMember_written claims.idToken hrest
  refine ⟨⟨idToken, userinfo⟩, ?_, hfirst, hsecond⟩
  rw [claimsRecord, ← List.append_nil (writtenMember "userinfo" claims.userinfo),
    parsed_object hnodup]
  change ((optionalProperty claimsMemberSchema ((writtenMember "id_token" claims.idToken ++
    (writtenMember "userinfo" claims.userinfo ++ [])).map readBack) (ofAscii "id_token")).bind
      _) = _
  rw [hidToken]
  change (optionalProperty claimsMemberSchema ((writtenMember "id_token" claims.idToken ++
    (writtenMember "userinfo" claims.userinfo ++ [])).map readBack) (ofAscii "userinfo")).map
      _ = _
  rw [optionalProperty_of_lookup (lookup_writtenMember_of_ne hne), huserinfo]
  rfl

/-- What is written of a request is read as that request. -/
theorem parse_claimsParameter {claims : ClaimsRequest} {raw : Utf16}
    (h : claimsParameter claims = some raw) :
    parseClaimsRequest (if raw = [] then none else some raw) = .ok claims ∧ WellFormed raw := by
  unfold claimsParameter at h
  split at h
  case isTrue hempty =>
    obtain rfl := Option.some.inj h
    obtain ⟨⟨idToken, _, _⟩, ⟨userinfo, _, _⟩⟩ := claims
    simp only [Bool.and_eq_true, List.isEmpty_iff] at hempty
    obtain ⟨rfl, rfl⟩ := hempty
    exact ⟨rfl, .nil⟩
  case isFalse =>
    split at h
    case isTrue => cases h
    case isFalse hshort =>
      obtain rfl := Option.some.inj h
      obtain ⟨data, hdata, hidToken, huserinfo⟩ := claimsRequestSchema_record claims
      have hne : stringify (claimsRecord claims) ≠ [] := by
        obtain ⟨u, rest, hhead, -⟩ := stringify_starts (claimsRecord claims)
        rw [hhead]
        exact List.cons_ne_nil _ _
      refine ⟨?_, wellFormed_stringify _⟩
      rw [if_neg hne, parseClaimsRequest, if_neg hshort]
      simp only [parseJson_stringify, hdata, hidToken, huserinfo]

end Odudu.ProtocolOidc
