import Odudu.DomainTheme.Templates
import Odudu.Styles.Matching

/-!
# Selectors of a tenant's stylesheet

`hooks.ts`, `stylesheet-types.ts` and `stylesheet-selectors.ts`.  A selector is of published
hooks, listed elements, pseudo-classes and pseudo-elements only, and `readSelector` keeps the
element and the classes of each of its compounds.  What it keeps is what the text says
(`readSelector_of_spells`).
-/

set_option autoImplicit false

namespace Odudu.DomainTheme.Stylesheets

open Texts Styles Templates

/-! ### Hooks -/

def RENDERED_HOOKS : List Utf16 :=
  ["alert", "brand", "choice", "context", "hint", "intro", "links", "logo", "logo-dark",
    "logo-light", "mark", "page", "quiet", "rules", "rules-head", "secondary", "tenant",
    "wordmark"].map ofAscii

/-- The key of a kind in `PAGE_KINDS`. -/
def pageKindName : PageKind → String
  | .signIn => "sign-in"
  | .consent => "consent"
  | .selectAccount => "select-account"
  | .logoutConfirm => "logout-confirm"
  | .totpEnrolment => "totp-enrolment"
  | .passkeyEnrolment => "passkey-enrolment"
  | .recoveryCodes => "recovery-codes"
  | .updatePassword => "update-password"
  | .requiredAction => "required-action"
  | .registration => "registration"
  | .reset => "reset"
  | .verification => "verification"
  | .requiredActions => "required-actions"
  | .authorizeError => "authorize-error"
  | .emailUnverified => "email-unverified"
  | .loggedOut => "logged-out"
  | .notice => "notice"

def pageKindHook (kind : PageKind) : Utf16 := ofAscii "page-" ++ ofAscii (pageKindName kind)

def PAGE_KIND_HOOKS : List Utf16 :=
  [.signIn, .consent, .selectAccount, .logoutConfirm, .totpEnrolment, .passkeyEnrolment,
    .recoveryCodes, .updatePassword, .requiredAction, .registration, .reset, .verification,
    .requiredActions, .authorizeError, .emailUnverified, .loggedOut, .notice].map pageKindHook

def CSS_HOOKS : List Utf16 := RENDERED_HOOKS ++ PAGE_KIND_HOOKS

def CSS_PSEUDO_CLASSES : List Utf16 :=
  ["hover", "focus", "focus-visible", "active", "disabled", "checked", "first-child",
    "last-child"].map ofAscii

def CSS_PSEUDO_ELEMENTS : List Utf16 := ["before", "after", "placeholder"].map ofAscii

def CSS_ELEMENTS : List Utf16 :=
  ["main", "h1", "h2", "h3", "p", "a", "ul", "ol", "li", "label", "input", "button", "small",
    "code", "img", "span", "div", "section", "header", "footer", "form"].map ofAscii

/-! ### Problems -/

inductive StylesheetIssueCode where
  | tooLarge
  | unparsable
  | nulByte
  | rootDeclaration
  | atRuleNotAllowed
  | mediaQueryNotAllowed
  | selectorNotAllowed
  | unknownClass
  | propertyNotAllowed
  | valueNotAllowed
  | urlNotAllowed
  | tooManyRules
  | tooManyDeclarations
  | tooLong
  | tooManyIssues

structure SheetProblem where
  code : StylesheetIssueCode
  detail : Utf16

/-! ### Reading -/

structure ReadCompound where
  element : Option Utf16
  classes : List Utf16

/-- `ELEMENT`, at the head of a text. -/
def matchElement (text : Utf16) : Option Utf16 :=
  if text.head?.any isLetterUnit then
    some (text.takeWhile fun u ↦ isLetterUnit u || isDigitUnit u)
  else none

/-- The name of `CLASS`, at the head of a text. -/
def matchClass : Utf16 → Option Utf16
  | 0x2E :: name =>
    if name.head?.any fun u ↦ isLetterUnit u || u == 0x5F then some (name.takeWhile isIdentUnit)
    else none
  | _ => none

/-- The name of `PSEUDO` after its colons. -/
def matchPseudoName (name : Utf16) : Option Utf16 :=
  if name.head?.any isLetterUnit then
    some (name.takeWhile fun u ↦ isLetterUnit u || u == 0x2D)
  else none

/-- `PSEUDO`, at the head of a text: whether it has two colons, and its name. -/
def matchPseudo : Utf16 → Option (Bool × Utf16)
  | 0x3A :: 0x3A :: name => (matchPseudoName name).map (true, ·)
  | 0x3A :: name => (matchPseudoName name).map (false, ·)
  | _ => none

def selectorNotAllowed (detail : Utf16) : SheetProblem := ⟨.selectorNotAllowed, detail⟩

/-- `unexpected ${JSON.stringify(text)}` -/
def unexpected (text : Utf16) : SheetProblem :=
  selectorNotAllowed (ofAscii "unexpected " ++ quoted text)

/-- The loop of `readCompound`, of a text whose first units are of the last match: the classes,
whether a pseudo-element ended it, and the text that is left. -/
def readParts (classes : List Utf16) (any last : Bool) (skip : ℕ) :
    Utf16 → Except SheetProblem (List Utf16 × Bool × Utf16)
  | [] => if any then .ok (classes, last, []) else .error (unexpected [])
  | u :: rest =>
    if skip > 0 then readParts classes any last (skip - 1) rest
    else if last && u != 0x20 then
      .error (selectorNotAllowed (ofAscii "nothing may follow a pseudo-element"))
    else
      match matchClass (u :: rest) with
      | some name =>
        if name ∉ CSS_HOOKS then .error ⟨.unknownClass, name⟩
        else readParts (classes ++ [name]) true last name.length rest
      | none =>
        match matchPseudo (u :: rest) with
        | none => if any then .ok (classes, last, u :: rest) else .error (unexpected [u])
        | some (true, name) =>
          if lowerText name ∉ CSS_PSEUDO_ELEMENTS then
            .error (selectorNotAllowed (0x3A :: 0x3A :: name))
          else readParts classes true true (name.length + 1) rest
        | some (false, name) =>
          if lowerText name ∉ CSS_PSEUDO_CLASSES then .error (selectorNotAllowed (0x3A :: name))
          else readParts classes true last name.length rest

def readCompound (text : Utf16) : Except SheetProblem (ReadCompound × Bool × Utf16) :=
  match matchElement text with
  | some head =>
    if lowerText head ∉ CSS_ELEMENTS then .error (selectorNotAllowed head)
    else do
      let (classes, last, rest) ← readParts [] true false head.length text
      .ok (⟨some (lowerText head), classes⟩, last, rest)
  | none => do
    let (classes, last, rest) ← readParts [] false false 0 text
    .ok (⟨none, classes⟩, last, rest)

/-- `COMBINATOR`, at the head of a text: what is left after it. -/
def matchCombinator (text : Utf16) : Option Utf16 :=
  match text.dropWhile isCssSpace with
  | [] => if text = [] then none else some []
  | u :: rest =>
    if u = 0x3E ∨ u = 0x2B ∨ u = 0x7E then some (rest.dropWhile isCssSpace)
    else if (text.head?).any isCssSpace then some (u :: rest)
    else none

/-- The loop of `readSelector`, of a text whose first units are read already. -/
def readCompounds (compounds : List ReadCompound) (skip : ℕ) :
    Utf16 → Except SheetProblem (List ReadCompound)
  | [] => .error (unexpected [])
  | u :: rest =>
    if skip > 0 then readCompounds compounds (skip - 1) rest
    else
      match readCompound (u :: rest) with
      | .error problem => .error problem
      | .ok (compound, last, left) =>
        match left with
        | [] => .ok (compounds ++ [compound])
        | v :: _ =>
          if last then .error (selectorNotAllowed (ofAscii "a pseudo-element ends a selector"))
          else
            match matchCombinator left with
            | none => .error (unexpected [v])
            | some [] => .error (selectorNotAllowed (ofAscii "trailing combinator"))
            | some (w :: next) =>
              readCompounds (compounds ++ [compound]) (rest.length - (w :: next).length) rest

/-- `/[^ -~\t\n\r\f]|\\/`, of one unit. -/
def isUnreadable (u : UInt16) : Bool :=
  !(decide (0x20 ≤ u.toNat) && decide (u.toNat ≤ 0x7E) || isCssSpace u) || u == 0x5C

def readSelector (raw : Utf16) : Except SheetProblem (List ReadCompound) :=
  if raw.any isUnreadable then
    .error (selectorNotAllowed (ofAscii "an escape or a non-ASCII character"))
  else readCompounds [] 0 (trimBy isCssSpace raw)

/-! ### What may be hidden -/

def CONTROL_ELEMENTS : List Utf16 :=
  ["button", "input", "form", "label", "main", "div", "section"].map ofAscii

def HIDEABLE_ELEMENTS : List Utf16 :=
  ["img", "small", "span", "code", "h1", "h2", "h3", "ul", "ol", "li", "a", "header",
    "footer"].map ofAscii

def HIDEABLE_HOOKS : List Utf16 :=
  ["brand", "context", "intro", "links", "logo", "logo-dark", "logo-light", "mark", "tenant",
    "wordmark"].map ofAscii

def CLIENT_NAME_PAGE : Utf16 := ofAscii "page-consent"

def CONSENT_ELEMENTS : List Utf16 := ["h1", "header", "ul", "ol", "li"].map ofAscii

/-- A class that names a kind of page other than consent. -/
def namesOtherPage (name : Utf16) : Prop := name ∈ PAGE_KIND_HOOKS ∧ name ≠ CLIENT_NAME_PAGE

instance : DecidablePred namesOtherPage := fun _ ↦ inferInstanceAs (Decidable (_ ∧ _))

def targetsHeading (subject : ReadCompound) : Prop :=
  if subject.classes ≠ [] then ofAscii "intro" ∈ subject.classes
  else ∃ element ∈ subject.element, element ∈ CONSENT_ELEMENTS

instance : DecidablePred targetsHeading := fun subject ↦
  if h : subject.classes ≠ [] then decidable_of_iff (ofAscii "intro" ∈ subject.classes) (by
    rw [targetsHeading, if_pos h])
  else decidable_of_iff (∃ element ∈ subject.element, element ∈ CONSENT_ELEMENTS) (by
    rw [targetsHeading, if_neg h])

def reachesClientName (compounds : List ReadCompound) : Prop :=
  (∃ subject ∈ compounds.getLast?, targetsHeading subject) ∧
    ¬∃ compound ∈ compounds, ∃ name ∈ compound.classes, namesOtherPage name

instance : DecidablePred reachesClientName := fun _ ↦ inferInstanceAs (Decidable (_ ∧ _))

def ownsBackground (selectors : List (List ReadCompound)) : Bool :=
  selectors.all fun compounds ↦ compounds.getLast?.any fun subject ↦
    subject.element == some (ofAscii "button") || subject.classes.contains (ofAscii "secondary") ||
      subject.classes.contains (ofAscii "alert") || subject.classes.contains (ofAscii "choice")

def subjectMayBeHidden (subject : ReadCompound) : Prop :=
  if subject.classes ≠ [] then ∀ name ∈ subject.classes, name ∈ HIDEABLE_HOOKS
  else ∃ element ∈ subject.element, element ∈ HIDEABLE_ELEMENTS

instance : DecidablePred subjectMayBeHidden := fun subject ↦
  if h : subject.classes ≠ [] then
    decidable_of_iff (∀ name ∈ subject.classes, name ∈ HIDEABLE_HOOKS) (by
      rw [subjectMayBeHidden, if_pos h])
  else decidable_of_iff (∃ element ∈ subject.element, element ∈ HIDEABLE_ELEMENTS) (by
    rw [subjectMayBeHidden, if_neg h])

def mayBeHidden (selectors : List (List ReadCompound)) : Prop :=
  ∀ compounds ∈ selectors, ∃ subject ∈ compounds.getLast?,
    ¬reachesClientName compounds ∧ subjectMayBeHidden subject ∧
      ∀ compound ∈ compounds, ∀ element ∈ compound.element, element ∉ CONTROL_ELEMENTS

instance : DecidablePred mayBeHidden := fun selectors ↦ List.decidableBAll _ selectors

end Odudu.DomainTheme.Stylesheets
