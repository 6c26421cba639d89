import Mathlib.Data.List.Induction
import Odudu.I18n.Messages
import Odudu.Texts.Stringify

/-!
# A tenant's own texts

`override.ts`: the checks of a text that a tenant wants shown in place of a catalogue's, and its
formatting.  The checks read which arguments a text has, and not which of its arms show them.
A heading of the consent page names every client exactly when the arms that a name takes have
it bare; only where a text has a key for a name may its arms spell that name themselves
(`formatOverride_names_client_iff`).
-/

set_option autoImplicit false

namespace Odudu.I18n

open Texts

def MAX_OVERRIDE_LENGTH : ℕ := 2000

/-- What is used of the package that parses and formats messages: `none` is thrown. -/
structure IntlMessageFormat (Value : Type) where
  parse : Utf16 → Option (List Element)
  locale : Utf16 → Option (Locale Value)
  /-- `String(value)` -/
  textOf : Value → Utf16

def EN : Utf16 := ofAscii "en"

section Checks

variable {Value : Type} (intl : IntlMessageFormat Value)

def formatterFor (message tag : Utf16) : Option (List Element × Locale Value) :=
  (intl.locale tag).bind fun locale ↦ (intl.parse message).map fun ast ↦ (ast, locale)

def isReserved (u : UInt16) : Bool := u == 0xE000 || u == 0xE001

def overrideProblem (message : Utf16) : Option Utf16 :=
  if message = [] then some (ofAscii "must not be empty")
  else if message.length > MAX_OVERRIDE_LENGTH then
    some (ofAscii "must be at most " ++ decimal MAX_OVERRIDE_LENGTH ++ ofAscii " characters")
  else if message.any isReserved then
    some (ofAscii "contains a character reserved for the server")
  else
    match formatterFor intl message EN with
    | none => some (ofAscii "is not a valid message: check its braces and plural arms")
    | some _ => none

/-- A set in the order its members came. -/
def addName (into : List Utf16) (name : Utf16) : List Utf16 :=
  if name ∈ into then into else into ++ [name]

mutual

/-- The names an element adds to those there are. -/
def argumentNamesOf (into : List Utf16) : Element → List Utf16
  | .literal _ | .pound => into
  | .argument name | .number name _ | .date name _ | .time name _ => addName into name
  | .select name options => argumentNamesIn (addName into name) options
  | .plural name _ _ options => argumentNamesIn (addName into name) options
  | .tag name children => argumentNames (addName into name) children

def argumentNames (into : List Utf16) : List Element → List Utf16
  | [] => into
  | element :: elements => argumentNames (argumentNamesOf into element) elements

def argumentNamesIn (into : List Utf16) : List (Utf16 × List Element) → List Utf16
  | [] => into
  | (_, arm) :: arms => argumentNamesIn (argumentNames into arm) arms

end

def NAMES_SHOWN : ℕ := 5

def NAME_LENGTH : ℕ := 40

def braced (names : List Utf16) : Utf16 :=
  let shown := (names.take NAMES_SHOWN).map fun name ↦
    ofAscii "\x7b" ++ name.take NAME_LENGTH ++ ofAscii "\x7d"
  let joined := (ofAscii ", ").intercalate shown
  if names.length > NAMES_SHOWN then joined ++ ofAscii " and more" else joined

def placeholderProblem (message original : Utf16) : Option Utf16 :=
  match formatterFor intl message EN, formatterFor intl original EN with
  | some (wanted, _), some (supplied, _) =>
    let supplied := argumentNames [] supplied
    let unknown := (argumentNames [] wanted).filter fun name ↦ name ∉ supplied
    if unknown = [] then none
    else
      let given := if supplied = [] then ofAscii "supplies no value"
        else ofAscii "supplies " ++ braced supplied
      some (ofAscii "uses " ++ braced unknown ++
        ofAscii ", which the page does not supply; the page " ++ given)
  | _, _ => none

def CONSENT_HEADING : Utf16 := ofAscii "consent.heading"

def CLIENT : Utf16 := ofAscii "client"

def REQUIRED_ARGUMENTS (key : Utf16) : Option (List Utf16) :=
  if key = CONSENT_HEADING then some [CLIENT] else none

def REQUIRED_REASONS (name : Utf16) : Option Utf16 :=
  if name = CLIENT then some (ofAscii "names the application asking for access") else none

def requiredArgumentsProblem (key message : Utf16) : Option Utf16 :=
  match REQUIRED_ARGUMENTS key with
  | none => none
  | some required =>
    match formatterFor intl message EN with
    | none => none
    | some (wanted, _) =>
      let wanted := argumentNames [] wanted
      let missing := required.filter fun name ↦ name ∉ wanted
      match missing with
      | [] => none
      | first :: _ =>
        some (ofAscii "must use " ++ braced missing ++ ofAscii ", which " ++
          (REQUIRED_REASONS first).getD (ofAscii "the page needs"))

end Checks

/-! ### Formatting -/

section Formatting

variable {Value : Type} (intl : IntlMessageFormat Value) (overrides : Utf16 → Option Utf16)

/-- The parsed messages of a map of overrides, `some none` being one that does not parse. -/
abbrev ByKey (Value : Type) : Type := Utf16 → Option (Option (List Element × Locale Value))

structure Call (Value : Type) where
  tag : Utf16
  id : Utf16
  values : Option (Utf16 → Option Value)

def formatMessage (ast : List Element) (locale : Locale Value)
    (values : Option (Utf16 → Option Value)) : Option Utf16 :=
  formatAll locale intl.textOf (values.getD fun _ ↦ none) none ast

/-- `formatOverride`, with what is parsed of the map before it and after it. -/
def formatOverride (byKey : ByKey Value) (call : Call Value) : Option Utf16 × ByKey Value :=
  match overrides call.id with
  | none => (none, byKey)
  | some message =>
    let formatter := (byKey call.id).getD (formatterFor intl message call.tag)
    (formatter.bind fun (ast, locale) ↦ formatMessage intl ast locale call.values,
      fun id ↦ if id = call.id then some formatter else byKey id)

/-- What is parsed of a map after calls. -/
def parsedAfter (calls : List (Call Value)) : ByKey Value :=
  calls.foldl (fun byKey call ↦ (formatOverride intl overrides byKey call).2) fun _ ↦ none

/-- The language of the first call for a text: its formatter is kept. -/
def firstTag (calls : List (Call Value)) (id tag : Utf16) : Utf16 :=
  match calls.find? fun earlier ↦ earlier.id = id with
  | none => tag
  | some earlier => earlier.tag

end Formatting

section Named

variable {Value : Type} {intl : IntlMessageFormat Value} {overrides : Utf16 → Option Utf16}

theorem parsedAfter_eq (calls : List (Call Value)) (id message : Utf16)
    (hmessage : overrides id = some message) :
    parsedAfter intl overrides calls id =
      (calls.find? fun earlier ↦ earlier.id = id).map
        fun earlier ↦ formatterFor intl message earlier.tag := by
  induction calls using List.reverseRecOn with
  | nil => rfl
  | append_singleton calls call ih =>
    rw [parsedAfter, List.foldl_append, List.foldl_cons, List.foldl_nil]
    change (formatOverride intl overrides (parsedAfter intl overrides calls) call).2 id = _
    rw [List.find?_append]
    by_cases hid : call.id = id
    · subst hid
      simp only [formatOverride, hmessage, if_true, ih]
      cases calls.find? fun earlier ↦ earlier.id = call.id with
      | none | some => simp
    · have hsame : (formatOverride intl overrides (parsedAfter intl overrides calls) call).2 id =
          parsedAfter intl overrides calls id := by
        unfold formatOverride
        split
        · rfl
        · exact if_neg (Ne.symm hid)
      rw [hsame, ih]
      simp [hid]

/-- What a call gives after others is what the text is formatted as in the language of the first
of them for it. -/
theorem formatOverride_eq (calls : List (Call Value)) (call : Call Value) {message : Utf16}
    (hmessage : overrides call.id = some message) :
    (formatOverride intl overrides (parsedAfter intl overrides calls) call).1 =
      (formatterFor intl message (firstTag calls call.id call.tag)).bind
        fun (ast, locale) ↦ formatMessage intl ast locale call.values := by
  rw [formatOverride, hmessage]
  dsimp only
  rw [parsedAfter_eq calls call.id message hmessage, firstTag]
  cases calls.find? fun earlier ↦ earlier.id = call.id with
  | none | some => rfl

/-- A text that has the argument bare outside its arms names it whatever the arms are. -/
theorem namesAll_of_bare {locale : Locale Value} {textOf : Value → Utf16}
    {values : Utf16 → Option Value} {shown : Utf16} {ast : List Element}
    (h : Element.argument shown ∈ ast) : namesAll locale textOf values shown ast = true := by
  induction ast with
  | nil => exact absurd h List.not_mem_nil
  | cons _ _ ih =>
    rw [namesAll, Bool.or_eq_true]
    rcases List.mem_cons.mp h with rfl | hlater
    · left
      rw [namesElement, beq_self_eq_true]
    · right
      exact ih hlater

end Named

/-! ### The heading of the consent page -/

def BLANK : UInt16 := 0x20

section Heading

variable {Value : Type} (intl : IntlMessageFormat Value) (string : Utf16 → Value)

/-- How a string among the values is read: as itself where it is shown, and as `Number` reads it,
blanks before it aside, where a number or an instant is made of it. -/
structure ReadsStrings : Prop where
  textOf : ∀ text, intl.textOf (string text) = text
  blank : ∀ tag locale, intl.locale tag = some locale → ∀ text,
    SameNumber locale (string (BLANK :: text)) (string text)

/-- The consent page asking for a client. -/
def headingFor (tag client : Utf16) : Call Value :=
  ⟨tag, CONSENT_HEADING, some (only CLIENT (string client))⟩

variable (ast : List Element) (locale : Locale Value) (client : Utf16)

/-- Whether the arms that a name takes have it bare. -/
def takesBare : Bool := namesAll locale intl.textOf (only CLIENT (string client)) CLIENT ast

/-- What the arms that a name takes show of their own, if it can be written. -/
def ownWords : Option Utf16 :=
  formatAll locale intl.textOf (only CLIENT (string client)) none (withoutAll CLIENT ast)

/-- The arms of a text that name the client: for a name that the text has no key for they have it
bare, or cannot be written; for its own keys they may spell the name as well. -/
structure ArmsName : Prop where
  others : ∀ client, ¬IsKey client (keysAll ast) →
    takesBare intl string ast locale client = true ∨ ownWords intl string ast locale client = none
  keys : ∀ client, IsKey client (keysAll ast) →
    takesBare intl string ast locale client = true ∨
      ∀ words, ownWords intl string ast locale client = some words → client <:+: words

variable {intl string ast locale client}

theorem ReadsStrings.blanks (h : ReadsStrings intl string) {tag : Utf16}
    (hlocale : intl.locale tag = some locale) (text : Utf16) (blanks : ℕ) :
    SameNumber locale (string (List.replicate (blanks + 1) BLANK ++ text)) (string text) := by
  induction blanks with
  | zero => exact h.blank tag locale hlocale text
  | succ blanks ih =>
    rw [List.replicate_succ, List.cons_append]
    exact (h.blank tag locale hlocale _).trans ih

/-- Without the bare argument the text shows its own words. -/
theorem ownWords_eq (hbare : takesBare intl string ast locale client = false) :
    formatAll locale intl.textOf (only CLIENT (string client)) none ast =
      ownWords intl string ast locale client :=
  (formatAll_withoutAll none hbare).symm

/-- A name that the text has no key for and whose arms do not have it bare is shown the same with
blanks before it, as many as one likes: too many for a text that is already written. -/
theorem ownWords_eq_none (h : ReadsStrings intl string) {tag : Utf16}
    (hlocale : intl.locale tag = some locale) (hkey : ¬IsKey client (keysAll ast))
    (hbare : takesBare intl string ast locale client = false)
    (hnamed : ∀ client text, formatAll locale intl.textOf (only CLIENT (string client)) none ast =
      some text → client <:+: text) :
    ownWords intl string ast locale client = none := by
  by_contra hwritten
  obtain ⟨words, hwords⟩ := Option.ne_none_iff_exists'.mp hwritten
  let padded := List.replicate (words.length + (keysAll ast).flatten.length + 1) BLANK ++ client
  have hlong : padded.length =
      words.length + (keysAll ast).flatten.length + 1 + client.length := by
    rw [List.length_append, List.length_replicate]
  have halike : Alike locale intl.textOf (string client) (string padded) (keysAll ast) := by
    refine ⟨?_, by rwa [h.textOf], fun hpadded ↦ ?_⟩
    · have hsame := h.blanks hlocale client (words.length + (keysAll ast).flatten.length)
      exact ⟨fun _ ↦ (hsame.number _).symm, fun _ ↦ (hsame.date _).symm,
        fun _ ↦ (hsame.time _).symm, fun _ _ ↦ (hsame.rule _ _).symm,
        fun _ ↦ (hsame.count _).symm⟩
    · rw [h.textOf] at hpadded
      have hle := hpadded.length_le
      omega
  have hshown := (formatAll_congr halike none hbare).symm.trans
    ((ownWords_eq hbare).trans hwords)
  have hle := (hnamed padded words hshown).length_le
  omega

/-- A text names every client exactly when its arms do. -/
theorem armsName_iff (h : ReadsStrings intl string) {tag : Utf16}
    (hlocale : intl.locale tag = some locale) :
    (∀ client text, formatAll locale intl.textOf (only CLIENT (string client)) none ast =
      some text → client <:+: text) ↔ ArmsName intl string ast locale := by
  constructor
  · intro hnamed
    refine ⟨fun client hkey ↦ ?_, fun client _ ↦ ?_⟩
    · cases hbare : takesBare intl string ast locale client with
      | true => exact .inl rfl
      | false => exact .inr (ownWords_eq_none h hlocale hkey hbare hnamed)
    · cases hbare : takesBare intl string ast locale client with
      | true => exact .inl rfl
      | false => exact .inr fun words hwords ↦ hnamed client words ((ownWords_eq hbare).trans hwords)
  · intro harms client text htext
    cases hbare : takesBare intl string ast locale client with
    | true =>
      have hin := infix_of_namesAll (only_self (string client)) hbare htext
      rwa [h.textOf] at hin
    | false =>
      have hwords := (ownWords_eq hbare).symm.trans htext
      by_cases hkey : IsKey client (keysAll ast)
      · exact ((harms.keys client hkey).resolve_left (by simp [hbare])) text hwords
      · have hnone := (harms.others client hkey).resolve_left (by simp [hbare])
        cases hnone.symm.trans hwords

/-- **The consent heading.**  A text names every client, in the language that it is formatted in,
exactly when the arms that a name takes have it bare, if they can be written, or spell the name
where it is a key of the text. -/
theorem formatOverride_names_client_iff (h : ReadsStrings intl string)
    {overrides : Utf16 → Option Utf16} (calls : List (Call Value)) (tag : Utf16) {message : Utf16}
    (hmessage : overrides CONSENT_HEADING = some message) :
    (∀ client text, (formatOverride intl overrides (parsedAfter intl overrides calls)
        (headingFor string tag client)).1 = some text → client <:+: text) ↔
      ∀ ast locale, formatterFor intl message (firstTag calls CONSENT_HEADING tag) =
        some (ast, locale) → ArmsName intl string ast locale := by
  have hshown : ∀ client, (formatOverride intl overrides (parsedAfter intl overrides calls)
      (headingFor string tag client)).1 =
        (formatterFor intl message (firstTag calls CONSENT_HEADING tag)).bind fun (ast, locale) ↦
          formatAll locale intl.textOf (only CLIENT (string client)) none ast :=
    fun client ↦ formatOverride_eq calls (headingFor string tag client) hmessage
  simp only [hshown]
  cases hformatter : formatterFor intl message (firstTag calls CONSENT_HEADING tag) with
  | none => simp
  | some formatter =>
    obtain ⟨locale, hlocale, hparsed⟩ := Option.bind_eq_some_iff.mp hformatter
    obtain ⟨ast, -, rfl⟩ := Option.map_eq_some_iff.mp hparsed
    simp only [Option.bind_some, Option.some.injEq, Prod.mk.injEq, and_imp]
    rw [armsName_iff h hlocale]
    exact ⟨fun harms _ _ hast hlocale ↦ hast ▸ hlocale ▸ harms, fun harms ↦ harms _ _ rfl rfl⟩

end Heading

/-! ### Headings -/

/-- The catalogue's heading. -/
def bareHeading : Utf16 := ofAscii "\x7bclient\x7d is asking for access"

/-- A heading that only chooses by the client. -/
def choosingHeading : Utf16 := ofAscii "\x7bclient, select, other \x7bHello\x7d\x7d"

/-- A heading with words of its own for one client. -/
def suiteHeading : Utf16 :=
  ofAscii "{client, select, Acme {The Acme suite} other {{client}}}"

/-- Its arms. -/
def suiteElements : List Element :=
  [.select CLIENT [(ofAscii "Acme", [.literal (ofAscii "The Acme suite")]),
    (OTHER, [.argument CLIENT])]]

/-- What the parser makes of the headings, and English for a client's name: not a number. -/
def headingsIntl : IntlMessageFormat Utf16 where
  parse message :=
    if message = bareHeading then
      some [.argument CLIENT, .literal (ofAscii " is asking for access")]
    else if message = choosingHeading then
      some [.select CLIENT [(OTHER, [.literal (ofAscii "Hello")])]]
    else if message = suiteHeading then some suiteElements
    else none
  locale _ := some
    { formatNumber := fun _ _ ↦ some (ofAscii "NaN")
      formatDate := fun _ _ ↦ none
      formatTime := fun _ _ ↦ none
      pluralRule := fun _ _ _ ↦ OTHER
      formatCount := fun _ _ ↦ ofAscii "NaN" }
  textOf := id

/-- The heading is accepted, and shows nothing of the client. -/
theorem choosing_heading_hides_client :
    overrideProblem headingsIntl choosingHeading = none ∧
      placeholderProblem headingsIntl choosingHeading bareHeading = none ∧
      requiredArgumentsProblem headingsIntl CONSENT_HEADING choosingHeading = none ∧
      (formatOverride headingsIntl (fun _ ↦ some choosingHeading) (fun _ ↦ none)
        (headingFor id EN (ofAscii "Acme"))).1 = some (ofAscii "Hello") ∧
      ¬ofAscii "Acme" <:+: ofAscii "Hello" := by
  decide +kernel

theorem readsStrings_headings : ReadsStrings headingsIntl id where
  textOf _ := rfl
  blank tag locale hlocale text := by
    obtain rfl := Option.some.inj hlocale
    exact ⟨fun _ ↦ rfl, fun _ ↦ rfl, fun _ ↦ rfl, fun _ _ ↦ rfl, fun _ ↦ rfl⟩

theorem takesBare_suite {locale : Locale Utf16} {client : Utf16} (hne : client ≠ ofAscii "Acme") :
    takesBare headingsIntl id suiteElements locale client = true := by
  have hother : (client == ofAscii "Acme") = false := beq_false_of_ne hne
  rw [takesBare, suiteElements, namesAll, namesElement_select, only_self, Option.any_some]
  change ((selectArm id client _).any _ || _) = true
  have harm : selectArm id client [(ofAscii "Acme", [.literal (ofAscii "The Acme suite")]),
      (OTHER, [.argument CLIENT])] = some [Element.argument CLIENT] := by
    rw [selectArm, id, List.lookup_cons, hother]
    by_cases hclient : client = OTHER
    · rw [hclient, List.lookup_cons_self]
    · rw [List.lookup_cons, beq_false_of_ne hclient]
      rfl
  rw [harm, Option.any_some, namesAll_of_bare List.mem_cons_self, Bool.true_or]

/-- The heading with words of its own names every client: the one that they are for is spelled in
them, and every other stands there bare. -/
theorem formatOverride_names_client_suite :
    (formatOverride headingsIntl (fun _ ↦ some suiteHeading) (fun _ ↦ none)
      (headingFor id EN (ofAscii "Acme"))).1 = some (ofAscii "The Acme suite") ∧
    ∀ client text, (formatOverride headingsIntl (fun _ ↦ some suiteHeading)
      (parsedAfter headingsIntl (fun _ ↦ some suiteHeading) []) (headingFor id EN client)).1 =
        some text → client <:+: text := by
  refine ⟨by decide +kernel, ?_⟩
  refine (@formatOverride_names_client_iff _ _ _ readsStrings_headings
    (fun _ ↦ some suiteHeading) [] EN suiteHeading rfl).mpr fun ast locale hformatter ↦ ?_
  have hparse : headingsIntl.parse suiteHeading = some suiteElements := by
    have hbare : suiteHeading ≠ bareHeading := by decide +kernel
    have hchoosing : suiteHeading ≠ choosingHeading := by decide +kernel
    simp only [headingsIntl, if_neg hbare, if_neg hchoosing, if_pos]
  rw [formatterFor, hparse] at hformatter
  obtain ⟨rfl, -⟩ := Prod.mk.inj (Option.some.inj hformatter)
  refine ⟨fun client hkey ↦ .inl (takesBare_suite fun hclient ↦ hkey (.inl ?_)), fun client _ ↦ ?_⟩
  · rw [hclient, suiteElements, keysAll, keysElement, keysArms]
    exact List.mem_cons_self
  · by_cases hclient : client = ofAscii "Acme"
    · refine .inr fun words hwords ↦ ?_
      subst hclient
      have hown : ownWords headingsIntl id suiteElements locale (ofAscii "Acme") =
          some (ofAscii "The Acme suite") := by
        rw [ownWords, suiteElements, withoutAll, withoutElement, withoutArms, formatAll,
          formatElement_select, only_self, Option.bind_some]
        change ((selectArm id (ofAscii "Acme") ((id (ofAscii "Acme"), _) :: _)).bind _).bind _ = _
        rw [selectArm_of_key]
        rfl
      obtain rfl := Option.some.inj (hown.symm.trans hwords)
      decide +kernel
    · exact .inl (takesBare_suite hclient)

end Odudu.I18n
