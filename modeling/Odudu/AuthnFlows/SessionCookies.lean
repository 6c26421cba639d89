import Odudu.Texts.Ascii
import Odudu.Texts.LengthPrefixed

/-!
# Session cookies

`service/session-cookie.ts` and `service/session-entry.ts`: a tenant's sessions are carried
in two cookies, an entry each of an id and a secret, and read back of a `Cookie` header.
Whatever else the header holds, the tenant reads the entries that were written for it, and
they are read for no other tenant (`sessionCookies_read_back`).

What an entry proves is a keyed hash, under its secret, of a purpose, its id and the values that
are bound to it, each after its length.  The hash is a parameter, and what is hashed of a text is
its characters.  The text that is hashed is of one purpose, one id and the same values, but for
surrogates that stand alone (`hashedText_inj`).

Texts are lists of characters.
-/

set_option autoImplicit false

namespace Odudu.AuthnFlows.SessionCookies

open Texts

abbrev Text : Type := List Char

/-! ### Entries -/

def isHexDigit (c : Char) : Bool := c.isDigit || "abcdefABCDEF".toList.contains c

/-- `isUuid`: any version and any variant. -/
def isUuid (value : Text) : Bool :=
  decide ((value.splitOn '-').map List.length = [8, 4, 4, 4, 12]) &&
    value.all fun c ↦ c == '-' || isHexDigit c

/-- `SECRET` -/
def isSecret (value : Text) : Bool :=
  decide (value.length = 43) && value.all fun c ↦ c.isAlphanum || c == '_' || c == '-'

/-- A session as a browser's cookie carries it. -/
structure SessionEntry where
  id : Text
  secret : Text
  isUuid : isUuid id = true
  isSecret : isSecret secret = true
  deriving DecidableEq

def PAIR : Char := ':'

def SessionEntry.parse (value : Text) : Option SessionEntry :=
  if PAIR ∈ value then
    let id := value.takeWhile (· ≠ PAIR)
    let secret := (value.dropWhile (· ≠ PAIR)).tail
    if h : SessionCookies.isUuid id = true ∧ SessionCookies.isSecret secret = true then
      some ⟨id, secret, h.1, h.2⟩
    else none
  else none

def SessionEntry.cookieValue (entry : SessionEntry) : Text := entry.id ++ PAIR :: entry.secret

/-! ### Writing -/

/-- A tenant's name: a DNS label. -/
structure TenantName where
  text : Text
  label : text.all (fun c ↦ c.isLower || c.isDigit || c == '-') = true

def SEPARATOR : Char := '.'

def PERSISTENT_SUFFIX : Text := "-persistent".toList

def sessionCookieName (tenant : TenantName) (tls : Bool) : Text :=
  if tls then "__Host-".toList ++ (tenant.text ++ "-session".toList)
  else tenant.text ++ "-session".toList

def persistentName (tenant : TenantName) (tls : Bool) : Text :=
  sessionCookieName tenant tls ++ PERSISTENT_SUFFIX

structure SessionEntries where
  ephemeral : List SessionEntry
  persistent : List SessionEntry

structure SessionCookieInput extends SessionEntries where
  tenant : TenantName
  tls : Bool
  persistentMaxAgeSeconds : ℤ

def attributes (tls : Bool) : List Text :=
  ["HttpOnly".toList, "SameSite=Lax".toList, "Path=/".toList] ++
    if tls then ["Secure".toList] else []

def cookie (name value : Text) (tls : Bool) (maxAge : Option ℤ) : Text :=
  let parts := (name ++ '=' :: value) :: attributes tls
  [';', ' '].intercalate (match maxAge with
    | none => parts
    | some maxAge => parts ++ ["Max-Age=".toList ++ (toString maxAge).toList])

/-- An empty list is written as an expiry. -/
def listCookie (name : Text) (entries : List SessionEntry) (tls : Bool) (maxAge : Option ℤ) :
    Text :=
  if entries.isEmpty then cookie name [] tls (some 0)
  else cookie name ([SEPARATOR].intercalate (entries.map SessionEntry.cookieValue)) tls maxAge

def sessionCookies (input : SessionCookieInput) : List Text :=
  [listCookie (sessionCookieName input.tenant input.tls) input.ephemeral input.tls none,
    listCookie (persistentName input.tenant input.tls) input.persistent input.tls
      (some input.persistentMaxAgeSeconds)]

/-! ### Reading -/

def trim : Text → Text := trimBy isSpace

/-- The name of a part of the header, and its value, if it has an equals sign. -/
def pairOf (pair : Text) : Option (Text × Text) :=
  if '=' ∈ pair then
    some (trim (pair.takeWhile (· ≠ '=')), trim (pair.dropWhile (· ≠ '=')).tail)
  else none

/-- A malformed entry is dropped. -/
def entriesIn (value : Text) : List SessionEntry :=
  (value.splitOn SEPARATOR).filterMap SessionEntry.parse

def entriesOf (header name : Text) : List SessionEntry :=
  (((header.splitOn ';').filterMap pairOf).find? fun pair ↦ pair.1 = name).elim [] fun pair ↦
    entriesIn pair.2

def readSessionEntries (header : Option Text) (tenant : TenantName) (tls : Bool) :
    SessionEntries :=
  match header with
  | none => ⟨[], []⟩
  | some header =>
    ⟨entriesOf header (sessionCookieName tenant tls), entriesOf header (persistentName tenant tls)⟩

/-! ### Plain texts -/

/-- Nothing in the text is read as the end of a part of the header. -/
def Plain (text : Text) : Prop := ∀ c ∈ text, isSpace c = false ∧ c ≠ ';' ∧ c ≠ '='

theorem plain_append {text more : Text} (h : Plain text) (hmore : Plain more) :
    Plain (text ++ more) := by
  intro c hc
  rcases List.mem_append.mp hc with hc | hc
  · exact h c hc
  · exact hmore c hc

theorem isAlphanum_eq (c : Char) : c.isAlphanum = (c.isUpper || c.isLower || c.isDigit) := rfl

theorem isAlphanum_iff {c : Char} :
    c.isAlphanum = true ↔ (0x41 ≤ c.toNat ∧ c.toNat ≤ 0x5a ∨ 0x61 ≤ c.toNat ∧ c.toNat ≤ 0x7a) ∨
      0x30 ≤ c.toNat ∧ c.toNat ≤ 0x39 := by
  have hupper : c.isUpper = decide (65 ≤ c.val ∧ c.val ≤ 90) := rfl
  have hlower : c.isLower = (decide (97 ≤ c.val) && decide (c.val ≤ 122)) := rfl
  have hdigit : c.isDigit = (decide (48 ≤ c.val) && decide (c.val ≤ 57)) := rfl
  rw [isAlphanum_eq, hupper, hlower, hdigit]
  simp only [Bool.or_eq_true, Bool.and_eq_true, decide_eq_true_eq, UInt32.le_iff_toNat_le]
  exact Iff.rfl

/-- Letters, digits and a few signs. -/
theorem plain_char {c : Char}
    (h : c.isAlphanum = true ∨ c = '-' ∨ c = '_' ∨ c = ':' ∨ c = '.') :
    isSpace c = false ∧ c ≠ ';' ∧ c ≠ '=' := by
  rcases h with h | rfl | rfl | rfl | rfl
  · have hrange := isAlphanum_iff.mp h
    refine ⟨?_, ?_, ?_⟩
    · simp only [isSpace, List.mem_cons, List.not_mem_nil, or_false, Bool.or_eq_false_iff,
        decide_eq_false_iff_not, Bool.and_eq_false_iff]
      omega
    · rintro rfl
      revert hrange
      decide
    · rintro rfl
      revert hrange
      decide
  all_goals decide

theorem Plain.ends {text : Text} (h : Plain text) :
    text.head?.any isSpace = false ∧ text.getLast?.any isSpace = false := by
  constructor
  · cases hfirst : text.head? with
    | none => rfl
    | some c => exact (h c (List.mem_of_head? hfirst)).1
  · cases hlast : text.getLast? with
    | none => rfl
    | some c => exact (h c (List.mem_of_getLast? hlast)).1

theorem plain_name (tenant : TenantName) (tls : Bool) :
    Plain (sessionCookieName tenant tls) ∧ Plain (persistentName tenant tls) := by
  have hwords : ∀ word : Text, (word.all fun c ↦ c.isAlphanum || c == '-' || c == '_') = true →
      Plain word := by
    intro word hword c hc
    have hchar := List.all_eq_true.mp hword c hc
    simp only [Bool.or_eq_true, beq_iff_eq] at hchar
    exact plain_char (by tauto)
  have htenant : Plain tenant.text := by
    intro c hc
    have hchar := List.all_eq_true.mp tenant.label c hc
    simp only [Bool.or_eq_true, beq_iff_eq] at hchar
    refine plain_char ?_
    rcases hchar with (hlower | hdigit) | hdash
    · exact Or.inl (by simp [isAlphanum_eq, hlower])
    · exact Or.inl (by simp [isAlphanum_eq, hdigit])
    · exact Or.inr (Or.inl hdash)
  have hsession : Plain (sessionCookieName tenant tls) := by
    unfold sessionCookieName
    have hsuffix := plain_append htenant (hwords "-session".toList (by decide))
    cases tls with
    | false => exact hsuffix
    | true => exact plain_append (hwords "__Host-".toList (by decide)) hsuffix
  exact ⟨hsession, plain_append hsession (hwords PERSISTENT_SUFFIX (by decide))⟩

/-! ### Entries are read back -/

theorem SessionEntry.chars (entry : SessionEntry) :
    (∀ c ∈ entry.id, c.isAlphanum = true ∨ c = '-') ∧
      ∀ c ∈ entry.secret, c.isAlphanum = true ∨ c = '-' ∨ c = '_' := by
  have hhex : ∀ c, isHexDigit c = true → c.isAlphanum = true := by
    intro c hc
    rcases Bool.or_eq_true_iff.mp hc with hdigit | hletter
    · simp [isAlphanum_eq, hdigit]
    · exact List.all_eq_true.mp
        (show "abcdefABCDEF".toList.all Char.isAlphanum = true by decide) c (by simpa using hletter)
  have hid := entry.isUuid
  have hsecret := entry.isSecret
  simp only [SessionCookies.isUuid, SessionCookies.isSecret, Bool.and_eq_true, List.all_eq_true,
    Bool.or_eq_true, beq_iff_eq] at hid hsecret
  refine ⟨fun c hc ↦ ?_, fun c hc ↦ ?_⟩
  · rcases hid.2 c hc with hdash | hdigit
    · exact Or.inr hdash
    · exact Or.inl (hhex c hdigit)
  · rcases hsecret.2 c hc with (halnum | hunder) | hdash
    · exact Or.inl halnum
    · exact Or.inr (Or.inr hunder)
    · exact Or.inr (Or.inl hdash)

theorem parse_cookieValue (entry : SessionEntry) :
    SessionEntry.parse entry.cookieValue = some entry := by
  have hpair : ∀ c ∈ entry.id, c ≠ PAIR := by
    rintro c hc rfl
    rcases entry.chars.1 PAIR hc with h | h <;> exact absurd h (by decide)
  have hid : entry.cookieValue.takeWhile (· ≠ PAIR) = entry.id := by
    rw [SessionEntry.cookieValue, List.takeWhile_append_of_pos (by simpa using hpair)]
    simp
  have hsecret : (entry.cookieValue.dropWhile (· ≠ PAIR)).tail = entry.secret := by
    rw [SessionEntry.cookieValue, List.dropWhile_append_of_pos (by simpa using hpair)]
    simp
  have hmem : PAIR ∈ entry.cookieValue := by simp [SessionEntry.cookieValue]
  unfold SessionEntry.parse
  rw [if_pos hmem]
  simp only [hid, hsecret]
  exact dif_pos ⟨entry.isUuid, entry.isSecret⟩

theorem plain_cookieValue (entry : SessionEntry) :
    Plain entry.cookieValue ∧ SEPARATOR ∉ entry.cookieValue := by
  have hchars : ∀ c ∈ entry.cookieValue, c.isAlphanum = true ∨ c = '-' ∨ c = '_' ∨ c = ':' := by
    intro c hc
    rcases List.mem_append.mp hc with hid | hrest
    · rcases entry.chars.1 c hid with h | h <;> tauto
    · rcases List.mem_cons.mp hrest with rfl | hsecret
      · exact Or.inr (Or.inr (Or.inr rfl))
      · rcases entry.chars.2 c hsecret with h | h | h <;> tauto
  refine ⟨fun c hc ↦ plain_char ?_, fun hdot ↦ ?_⟩
  · rcases hchars c hc with h | h | h | h <;> tauto
  · rcases hchars _ hdot with h | h | h | h <;> exact absurd h (by decide)

/-- The value of a cookie that carries the entries. -/
def valueOf (entries : List SessionEntry) : Text :=
  [SEPARATOR].intercalate (entries.map SessionEntry.cookieValue)

theorem entriesIn_valueOf (entries : List SessionEntry) :
    entriesIn (valueOf entries) = entries := by
  cases entries with
  | nil => rfl
  | cons entry entries =>
    have hsplit : (valueOf (entry :: entries)).splitOn SEPARATOR =
        (entry :: entries).map SessionEntry.cookieValue := by
      refine List.splitOn_intercalate SEPARATOR (fun part hpart ↦ ?_) (by simp)
      obtain ⟨other, -, rfl⟩ := List.mem_map.mp hpart
      exact (plain_cookieValue other).2
    rw [entriesIn, hsplit, List.filterMap_map]
    have hparse : (SessionEntry.parse ∘ SessionEntry.cookieValue) = some :=
      funext parse_cookieValue
    rw [hparse, List.filterMap_some]

theorem plain_valueOf (entries : List SessionEntry) : Plain (valueOf entries) := by
  have hjoin : ∀ (parts : List Text), (∀ part ∈ parts, Plain part) →
      Plain ([SEPARATOR].intercalate parts) := by
    intro parts hparts
    induction parts with
    | nil => exact fun c hc ↦ absurd hc List.not_mem_nil
    | cons part parts ih =>
      have hpart := hparts part List.mem_cons_self
      cases parts with
      | nil => simpa [List.intercalate] using hpart
      | cons next parts =>
        have hrest := ih fun other hother ↦ hparts other (List.mem_cons_of_mem _ hother)
        have hsplit : [SEPARATOR].intercalate (part :: next :: parts) =
            part ++ ([SEPARATOR] ++ [SEPARATOR].intercalate (next :: parts)) := by
          simp [List.intercalate]
        rw [hsplit]
        refine plain_append hpart (plain_append (fun c hc ↦ ?_) hrest)
        obtain rfl := List.mem_singleton.mp hc
        exact plain_char (by simp [SEPARATOR])
  refine hjoin _ fun part hpart ↦ ?_
  obtain ⟨entry, -, rfl⟩ := List.mem_map.mp hpart
  exact (plain_cookieValue entry).1

/-! ### A header that carries the cookies -/

/-- What a user agent sends back of a cookie that was set. -/
def sentPair (setCookie : Text) : Text := setCookie.takeWhile (· ≠ ';')

/-- The parts of a header. -/
def partsOf (header : Text) : List Text := header.splitOn ';'

/-- A part of the header is the cookie, but for the space around it; without entries the cookie
is expired, and there may be none.  No other part has its name. -/
structure CarriesCookie (header name setCookie : Text) (entries : List SessionEntry) : Prop where
  held : entries ≠ [] → ∃ part ∈ partsOf header, trim part = sentPair setCookie
  alone : ∀ part ∈ partsOf header, (pairOf part).map Prod.fst = some name →
    trim part = sentPair setCookie

/-- The header carries the two cookies that `sessionCookies` wrote. -/
structure Carries (header : Text) (input : SessionCookieInput) : Prop where
  ephemeral : CarriesCookie header (sessionCookieName input.tenant input.tls)
    (listCookie (sessionCookieName input.tenant input.tls) input.ephemeral input.tls none)
    input.ephemeral
  persistent : CarriesCookie header (persistentName input.tenant input.tls)
    (listCookie (persistentName input.tenant input.tls) input.persistent input.tls
      (some input.persistentMaxAgeSeconds)) input.persistent

/-- The parts of the header that were written otherwise. -/
def otherParts (header : Text) (input : SessionCookieInput) : List Text :=
  (partsOf header).filter fun part ↦ trim part ∉ (sessionCookies input).map sentPair

/-- What is read of parts under a name. -/
def entriesUnder (name : Text) (parts : List Text) : List SessionEntry :=
  ((parts.filterMap pairOf).find? fun pair ↦ pair.1 = name).elim [] fun pair ↦ entriesIn pair.2

theorem entriesOf_eq (header name : Text) :
    entriesOf header name = entriesUnder name (partsOf header) := rfl

section Header

variable {header name value part : Text} {entries : List SessionEntry} {tls : Bool}
  {maxAge : Option ℤ}

theorem sentPair_listCookie (hname : Plain name) (entries : List SessionEntry) (tls : Bool)
    (maxAge : Option ℤ) :
    sentPair (listCookie name entries tls maxAge) = name ++ '=' :: valueOf entries := by
  have hcookie : ∀ value maxAge, Plain value →
      sentPair (cookie name value tls maxAge) = name ++ '=' :: value := by
    intro value maxAge hvalue
    obtain ⟨rest, hrest⟩ : ∃ rest,
        cookie name value tls maxAge = (name ++ '=' :: value) ++ ';' :: rest := by
      cases maxAge <;> cases tls <;> exact ⟨_, by simp [cookie, attributes, List.intercalate]; rfl⟩
    have hnone : ∀ c ∈ name ++ '=' :: value, decide (c ≠ ';') = true := by
      intro c hc
      rcases List.mem_append.mp hc with hc | hc
      · simpa using (hname c hc).2.1
      · rcases List.mem_cons.mp hc with rfl | hc
        · decide
        · simpa using (hvalue c hc).2.1
    rw [hrest, sentPair, List.takeWhile_append_of_pos hnone]
    simp
  unfold listCookie
  split
  case isTrue hempty =>
    obtain rfl := List.isEmpty_iff.mp hempty
    exact hcookie [] _ fun c hc ↦ absurd hc List.not_mem_nil
  case isFalse => exact hcookie _ _ (plain_valueOf entries)

/-- A part that is a cookie is read as its name and its value. -/
theorem pairOf_of_trim (hname : Plain name) (hvalue : Plain value)
    (h : trim part = name ++ '=' :: value) : pairOf part = some (name, value) := by
  obtain ⟨before, after, hbefore, hafter, hpart⟩ := exists_padding isSpace part
  rw [show trimBy isSpace part = name ++ '=' :: value from h] at hpart
  have hequals : ∀ c ∈ before ++ name, decide (c ≠ '=') = true := by
    intro c hc
    rcases List.mem_append.mp hc with hc | hc
    · have hspace := hbefore c hc
      simp only [decide_eq_true_eq]
      rintro rfl
      exact absurd hspace (by decide)
    · simpa using (hname c hc).2.2
  have hsplit : part = (before ++ name) ++ '=' :: (value ++ after) := by
    rw [hpart]
    simp
  have htake : part.takeWhile (· ≠ '=') = before ++ (name ++ []) := by
    rw [hsplit, List.takeWhile_append_of_pos hequals]
    simp
  have hdrop : (part.dropWhile (· ≠ '=')).tail = [] ++ (value ++ after) := by
    rw [hsplit, List.dropWhile_append_of_pos hequals]
    simp
  have hmem : '=' ∈ part := by
    rw [hsplit]
    simp
  have hnone : ∀ c ∈ ([] : Text), isSpace c = true := fun c hc ↦ absurd hc List.not_mem_nil
  rw [pairOf, if_pos hmem, htake, hdrop, trim, trimBy_padded hbefore hnone hname.ends.1 hname.ends.2,
    trimBy_padded hnone hafter hvalue.ends.1 hvalue.ends.2]

theorem entriesUnder_of_carries (hname : Plain name)
    (h : CarriesCookie header name (listCookie name entries tls maxAge) entries) :
    entriesOf header name = entries := by
  have hread : ∀ part, trim part = sentPair (listCookie name entries tls maxAge) →
      pairOf part = some (name, valueOf entries) := fun part hpart ↦
    pairOf_of_trim hname (plain_valueOf entries) (hpart.trans (sentPair_listCookie hname _ _ _))
  rw [entriesOf_eq, entriesUnder]
  cases hfound : ((partsOf header).filterMap pairOf).find? fun pair ↦ pair.1 = name with
  | none =>
    -- There is no such part, and so there were no entries.
    by_contra hne
    obtain ⟨part, hpart, htrim⟩ := h.held (Ne.symm hne)
    have hpair := List.mem_filterMap.mpr ⟨part, hpart, hread part htrim⟩
    simpa using List.find?_eq_none.mp hfound _ hpair
  | some pair =>
    obtain ⟨part, hpart, hpair⟩ := List.mem_filterMap.mp (List.mem_of_find?_eq_some hfound)
    have hsame : pair.1 = name := by simpa using List.find?_some hfound
    have hvalue := hread part (h.alone part hpart (by rw [hpair, ← hsame]; rfl))
    obtain rfl := Option.some.inj (hpair.symm.trans hvalue)
    exact entriesIn_valueOf entries

end Header

/-! ### Other tenants -/

section Tenants

variable {tenant other : TenantName} {tls : Bool} {name : Text} {header : Text}
  {input : SessionCookieInput}

theorem sessionCookieName_inj (h : sessionCookieName other tls = sessionCookieName tenant tls) :
    other = tenant := by
  have htext : other.text = tenant.text := by
    unfold sessionCookieName at h
    cases tls with
    | false => exact List.append_cancel_right h
    | true => exact List.append_cancel_right (List.append_cancel_left h)
  obtain ⟨text, label⟩ := other
  obtain rfl : text = tenant.text := htext
  rfl

/-- The two cookies of tenants are told apart by how their names end. -/
theorem sessionCookieName_ne_persistentName :
    sessionCookieName other tls ≠ persistentName tenant tls := by
  intro h
  obtain ⟨start, hstart⟩ : ∃ start, sessionCookieName other tls = start ++ "-session".toList := by
    cases tls with
    | false => exact ⟨_, rfl⟩
    | true => exact ⟨_, (List.append_assoc "__Host-".toList other.text "-session".toList).symm⟩
  have hends := congrArg List.getLast? (hstart.symm.trans h)
  rw [persistentName, List.getLast?_append, List.getLast?_append] at hends
  exact absurd hends (by decide : some 'n' ≠ some 't')

theorem persistentName_inj (h : persistentName other tls = persistentName tenant tls) :
    other = tenant := sessionCookieName_inj (List.append_cancel_right h)

/-- A part that was written for a tenant is read under a name of that tenant. -/
theorem pairOf_written {part : Text} (h : trim part ∈ (sessionCookies input).map sentPair) :
    ∃ value, pairOf part = some (sessionCookieName input.tenant input.tls, value) ∨
      pairOf part = some (persistentName input.tenant input.tls, value) := by
  obtain ⟨hsession, hpersistent⟩ := plain_name input.tenant input.tls
  simp only [sessionCookies, List.map_cons, List.map_nil, List.mem_cons, List.not_mem_nil,
    or_false] at h
  rcases h with h | h
  · rw [sentPair_listCookie hsession] at h
    exact ⟨_, Or.inl (pairOf_of_trim hsession (plain_valueOf _) h)⟩
  · rw [sentPair_listCookie hpersistent] at h
    exact ⟨_, Or.inr (pairOf_of_trim hpersistent (plain_valueOf _) h)⟩

/-- Under any other name, what was written for the tenant is not read. -/
theorem entriesOf_otherParts (hsession : name ≠ sessionCookieName input.tenant input.tls)
    (hpersistent : name ≠ persistentName input.tenant input.tls) :
    entriesOf header name = entriesUnder name (otherParts header input) := by
  rw [entriesOf_eq, otherParts]
  induction partsOf header with
  | nil => rfl
  | cons part _ ih =>
    unfold entriesUnder at ih ⊢
    by_cases hwritten : trim part ∈ (sessionCookies input).map sentPair
    · rw [List.filter_cons_of_neg (by simpa using hwritten), ← ih]
      obtain ⟨value, hpair | hpair⟩ := pairOf_written hwritten
      · rw [List.filterMap_cons_some hpair, List.find?_cons_of_neg (by simpa using hsession.symm)]
      · rw [List.filterMap_cons_some hpair,
          List.find?_cons_of_neg (by simpa using hpersistent.symm)]
    · rw [List.filter_cons_of_pos (by simpa using hwritten)]
      cases hpair : pairOf part with
      | none => rw [List.filterMap_cons_none hpair, List.filterMap_cons_none hpair, ih]
      | some pair =>
        rw [List.filterMap_cons_some hpair, List.filterMap_cons_some hpair]
        by_cases hname : pair.1 = name
        · rw [List.find?_cons_of_pos (by simpa using hname),
            List.find?_cons_of_pos (by simpa using hname)]
        · rw [List.find?_cons_of_neg (by simpa using hname),
            List.find?_cons_of_neg (by simpa using hname), ih]

end Tenants

/-- **Session cookies.**  Of every header that carries the cookies that were written for a tenant,
among whatever others, the tenant reads the entries they were written of; and for any other
tenant what is read is what the other parts of the header hold, and so none of those entries
unless it is there once more. -/
theorem sessionCookies_read_back (input : SessionCookieInput) (header : Text)
    (h : Carries header input) :
    readSessionEntries (some header) input.tenant input.tls = input.toSessionEntries ∧
    ∀ other ≠ input.tenant,
      readSessionEntries (some header) other input.tls =
        ⟨entriesUnder (sessionCookieName other input.tls) (otherParts header input),
          entriesUnder (persistentName other input.tls) (otherParts header input)⟩ ∧
      ((∀ part ∈ otherParts header input, ∀ pair, pairOf part = some pair →
          ∀ entry ∈ entriesIn pair.2, entry ∉ input.ephemeral ++ input.persistent) →
        ∀ entry ∈ (readSessionEntries (some header) other input.tls).ephemeral ++
            (readSessionEntries (some header) other input.tls).persistent,
          entry ∉ input.ephemeral ++ input.persistent) := by
  obtain ⟨hsession, hpersistent⟩ := plain_name input.tenant input.tls
  refine ⟨?_, fun other hother ↦ ?_⟩
  · rw [readSessionEntries, entriesUnder_of_carries hsession h.ephemeral,
      entriesUnder_of_carries hpersistent h.persistent]
  · have hread : readSessionEntries (some header) other input.tls =
        ⟨entriesUnder (sessionCookieName other input.tls) (otherParts header input),
          entriesUnder (persistentName other input.tls) (otherParts header input)⟩ := by
      rw [readSessionEntries,
        entriesOf_otherParts (fun hname ↦ hother (sessionCookieName_inj hname))
          sessionCookieName_ne_persistentName,
        entriesOf_otherParts sessionCookieName_ne_persistentName.symm
          fun hname ↦ hother (persistentName_inj hname)]
    refine ⟨hread, fun hapart entry hentry ↦ ?_⟩
    have hunder : ∀ name, entry ∈ entriesUnder name (otherParts header input) →
        entry ∉ input.ephemeral ++ input.persistent := by
      intro name hmem
      unfold entriesUnder at hmem
      cases hfound : ((otherParts header input).filterMap pairOf).find?
          fun pair ↦ pair.1 = name with
      | none =>
        rw [hfound] at hmem
        cases hmem
      | some pair =>
        rw [hfound] at hmem
        obtain ⟨part, hpart, hpair⟩ := List.mem_filterMap.mp (List.mem_of_find?_eq_some hfound)
        exact hapart part hpart pair hpair entry hmem
    rw [hread] at hentry
    rcases List.mem_append.mp hentry with hmem | hmem
    · exact hunder _ hmem
    · exact hunder _ hmem

/-- The entry of a session whose id ends so. -/
def entryEnding (last : Char)
    (h : isUuid ("018f6d2e-0000-7000-8000-00000000000".toList ++ [last]) = true) : SessionEntry :=
  ⟨_, "47DEQpj8HBSa-_TImW-5JCeuQeRkm5NMpJWZG3hSuFU".toList, h, by decide⟩

/-- Two sessions of a tenant, and one that is remembered. -/
def threeSessions : SessionCookieInput where
  ephemeral := [entryEnding '1' (by decide), entryEnding '2' (by decide)]
  persistent := [entryEnding '3' (by decide)]
  tenant := ⟨"shop".toList, by decide⟩
  tls := false
  persistentMaxAgeSeconds := 86400

/-- Their two cookies, beside one of another tenant. -/
def besideAnother : Text :=
  [';', ' '].intercalate ("shop-2-session=x".toList :: "theme=dark".toList ::
    (sessionCookies threeSessions).map sentPair)

theorem sessionCookies_read_back_beside_another :
    readSessionEntries (some besideAnother) threeSessions.tenant threeSessions.tls =
      threeSessions.toSessionEntries := by
  refine (sessionCookies_read_back threeSessions besideAnother
    ⟨⟨fun _ ↦ ?_, ?_⟩, ⟨fun _ ↦ ?_, ?_⟩⟩).1
  · decide +kernel
  · decide +kernel
  · decide +kernel
  · decide +kernel

/-! ### What an entry proves -/

/-- What the language's library hashes with: the digest of a secret, and that of a text under a
secret as `base64url`. -/
structure Hashes where
  sha256 : Text → ℕ
  hmac : Text → String → String

/-- The units of a text. -/
def unitsOfText (text : Text) : Utf16 := unitsOf (String.ofList text)

namespace SessionEntry

variable (H : Hashes) (entry : SessionEntry)

/-- Whether the entry is of a session whose row holds this hash. -/
def matchesHash (storedHash : Option ℕ) : Bool := decide (storedHash = some (H.sha256 entry.secret))

def message (purpose : String) (values : List Utf16) : Utf16 :=
  bound (unitsOf purpose ++ COLON :: unitsOfText entry.id) values

/-- The characters of the message. -/
def hashedText (purpose : String) (values : List Utf16) : String :=
  usvString (entry.message purpose values)

def proof (purpose : String) (values : List Utf16) : String :=
  H.hmac entry.secret (entry.hashedText purpose values)

def proves (purpose : String) (presented : Utf16) (values : List Utf16) : Bool :=
  decide (entry.proof H purpose values = usvString presented)

end SessionEntry

/-! ### One text, one purpose, one entry -/

theorem unitsOf_injective {text text' : String} (h : unitsOf text = unitsOf text') :
    text = text' := by
  rw [← usvString_unitsOf text, h, usvString_unitsOf]

theorem unitsOfText_injective {text text' : Text} (h : unitsOfText text = unitsOfText text') :
    text = text' := String.ofList_injective (unitsOf_injective h)

theorem toWellFormed_unitsOf (text : String) : toWellFormed (unitsOf text) = unitsOf text := by
  rw [toWellFormed, usvString_unitsOf]

/-- No id has a colon in it. -/
theorem colon_notMem_id (entry : SessionEntry) : COLON ∉ unitsOfText entry.id := by
  intro hmem
  rw [unitsOfText, unitsOf, String.toList_ofList] at hmem
  obtain ⟨c, hc, hunit⟩ := List.mem_flatMap.mp hmem
  have hrange : c.toNat ≠ 0x3A ∧ c.toNat < 0x10000 := by
    rcases entry.chars.1 c hc with halnum | rfl
    · have hbounds := isAlphanum_iff.mp halnum
      omega
    · decide
  rw [charUnits, if_pos hrange.2, List.mem_singleton] at hunit
  have hcolon := congrArg UInt16.toNat hunit
  rw [UInt16.toNat_ofNat_of_lt' hrange.2] at hcolon
  exact hrange.1 hcolon.symm

/-- A purpose without a colon. -/
def IsPurpose (purpose : String) : Prop := COLON ∉ unitsOf purpose

instance (purpose : String) : Decidable (IsPurpose purpose) :=
  inferInstanceAs (Decidable (COLON ∉ unitsOf purpose))

/-- **One text is hashed for one purpose.** -/
theorem hashedText_inj {entry entry' : SessionEntry} {purpose purpose' : String}
    {values values' : List Utf16} (hpurpose : IsPurpose purpose) (hpurpose' : IsPurpose purpose')
    (h : entry.hashedText purpose values = entry'.hashedText purpose' values') :
    purpose = purpose' ∧ entry.id = entry'.id ∧
      values.map toWellFormed = values'.map toWellFormed := by
  obtain ⟨hhigh, hlow⟩ := colon_not_surrogate
  have hhead : ∀ (entry : SessionEntry) (purpose : String),
      toWellFormed (unitsOf purpose ++ COLON :: unitsOfText entry.id) =
        unitsOf purpose ++ COLON :: unitsOfText entry.id := by
    intro entry purpose
    rw [toWellFormed_append_unit hhigh hlow, toWellFormed_unitsOf, unitsOfText,
      toWellFormed_unitsOf]
  have hunits := usvString_eq_iff.mp h
  rw [SessionEntry.message, SessionEntry.message, toWellFormed_bound, toWellFormed_bound, hhead,
    hhead, bound, bound, List.append_assoc, List.append_assoc, List.cons_append,
    List.cons_append] at hunits
  obtain ⟨hname, hrest⟩ := cut_at_mark hpurpose hpurpose' hunits
  obtain ⟨hid, hvalues⟩ := append_flatMap_prefixed_inj (fun _ _ ↦ decimal_injective)
    colon_notMem_decimal (colon_notMem_id entry) (colon_notMem_id entry') hrest
  exact ⟨unitsOf_injective hname, unitsOfText_injective hid, hvalues⟩

end Odudu.AuthnFlows.SessionCookies
