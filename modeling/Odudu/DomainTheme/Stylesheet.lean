import Odudu.DomainTheme.StylesheetLegibility

/-!
# The check of a tenant's stylesheet

`stylesheet-properties.ts` and `stylesheet.ts`.  `checkStylesheet` walks the tree that the
parser makes of a stylesheet and lists what is wrong with it.  A stylesheet with nothing wrong
is rules of declarations, at the root or in a media query, each of which passed its own checks
(`rule_of_accepted`).
-/

set_option autoImplicit false

namespace Odudu.DomainTheme.Stylesheets

open Texts Styles

/-! ### Properties -/

def SIDES : List String :=
  ["top", "right", "bottom", "left", "inline", "block", "inline-start", "inline-end",
    "block-start", "block-end"]

def CORNERS : List String :=
  ["top-left", "top-right", "bottom-left", "bottom-right", "start-start", "start-end",
    "end-start", "end-end"]

def NAMED_PROPERTIES : List String :=
  ["color", "background-color", "border-color", "border-width", "border-style", "border-radius",
    "outline", "outline-color", "outline-width", "outline-style", "outline-offset", "width",
    "min-width", "max-width", "height", "min-height", "max-height", "inline-size", "block-size",
    "min-inline-size", "max-inline-size", "min-block-size", "max-block-size", "gap", "row-gap",
    "column-gap", "display", "flex", "flex-grow", "flex-shrink", "flex-basis", "flex-direction",
    "flex-wrap", "flex-flow", "grid-template-columns", "grid-template-rows", "align-items",
    "align-content", "align-self", "justify-content", "justify-items", "justify-self", "position",
    "overflow", "opacity", "box-shadow", "text-align", "text-transform", "text-decoration",
    "text-decoration-color", "text-decoration-line", "text-decoration-style",
    "text-decoration-thickness", "text-underline-offset", "letter-spacing", "line-height",
    "font-size", "font-weight", "font-style", "font-family", "white-space", "word-break",
    "list-style", "list-style-type", "list-style-position", "background", "background-image",
    "background-size", "background-position", "background-repeat", "object-fit", "cursor",
    "content"]

def sidesOf (base : String) : List Utf16 :=
  ofAscii base :: SIDES.flatMap fun side ↦
    let name := ofAscii base ++ ofAscii "-" ++ ofAscii side
    name :: if base = "border" then
      ["width", "style", "color"].map fun part ↦ name ++ ofAscii "-" ++ ofAscii part
    else []

def PROPERTIES : List Utf16 :=
  NAMED_PROPERTIES.map ofAscii ++ ["margin", "padding", "border"].flatMap sidesOf ++
    CORNERS.map fun corner ↦ ofAscii "border-" ++ ofAscii corner ++ ofAscii "-radius"

/-! ### The tree -/

/-- The line and the column that a node starts at, if they are known. -/
abbrev Start : Type := Option (ℕ × ℕ)

structure Declaration where
  /-- `raws.before` -/
  before : Utf16
  prop : Utf16
  value : Utf16
  important : Bool
  start : Start

inductive CssNode where
  | decl (declaration : Declaration)
  | rule (selector : Utf16) (nodes : List CssNode) (start : Start)
  /-- `rawParams` says that `raws.params` is there, `nodes` is what is in the block, if any. -/
  | atRule (name params : Utf16) (rawParams : Bool) (nodes : Option (List CssNode)) (start : Start)
  | comment

/-- What `parse` throws. -/
structure Unparsable where
  reason : Option Utf16
  line : Option ℕ
  column : Option ℕ

/-! ### The list of issues -/

structure StylesheetIssue where
  code : StylesheetIssueCode
  detail : Utf16
  line : Option ℕ
  column : Option ℕ

def MAX_STYLESHEET_BYTES : ℕ := 128 * 1024

def MAX_RULES : ℕ := 2000

def MAX_DECLARATIONS : ℕ := 10000

def MAX_SELECTORS : ℕ := 10

def MAX_SELECTOR_LENGTH : ℕ := 200

def MAX_VALUE_LENGTH : ℕ := 4096

def MAX_ISSUES : ℕ := 100

def MAX_PARAMS_LENGTH : ℕ := 200

def MAX_DETAIL : ℕ := 60

/-- `bound` -/
def boundDetail (detail : Utf16) : Utf16 :=
  if detail.length ≤ MAX_DETAIL then detail
  else
    let split := detail[MAX_DETAIL - 1]?.any (fun u ↦ decide (isHigh u)) &&
      detail[MAX_DETAIL]?.any fun u ↦ decide (isLow u)
    detail.take (if split then MAX_DETAIL - 1 else MAX_DETAIL)

/-- What `checkStylesheet` keeps as it goes. -/
structure Progress where
  issues : List StylesheetIssue
  stopped : Bool
  rules : ℕ
  declarations : ℕ

def Progress.empty : Progress := ⟨[], false, 0, 0⟩

def moreThan (n : ℕ) : Utf16 := ofAscii "more than " ++ decimal n

def Progress.add (progress : Progress) (code : StylesheetIssueCode) (detail : Utf16)
    (start : Start) : Progress :=
  if progress.stopped then progress
  else if progress.issues.length ≥ MAX_ISSUES - 1 then
    { progress with
      issues := progress.issues ++ [⟨.tooManyIssues, moreThan (MAX_ISSUES - 1), none, none⟩]
      stopped := true }
  else
    { progress with
      issues := progress.issues ++
        [⟨code, boundDetail detail, start.map Prod.fst, start.map Prod.snd⟩] }

def Progress.addAll (progress : Progress) (problems : List SheetProblem) (start : Start) :
    Progress :=
  problems.foldl (fun progress problem ↦ progress.add problem.code problem.detail start) progress

/-- One thing after another, until something stops it. -/
def untilStopped {α : Type} (f : α → Progress → Progress) (items : List α) (progress : Progress) :
    Progress :=
  items.foldl (fun progress item ↦ if progress.stopped then progress else f item progress) progress

/-! ### Media queries -/

def strip (lead text : Utf16) : Option Utf16 :=
  if lead.isPrefixOf text then some (text.drop lead.length) else none

/-- The text after the first of the words that it begins with. -/
def stripAny (leads : List String) (text : Utf16) : Option Utf16 :=
  leads.findSome? fun lead ↦ strip (ofAscii lead) text

def skipSpace (text : Utf16) : Utf16 := (strip (ofAscii " ") text).getD text

/-- `\d+(?:\.\d+)?` -/
def stripNumber (text : Utf16) : Option Utf16 :=
  if text.head?.any isDigitUnit then
    let rest := text.dropWhile isDigitUnit
    match strip (ofAscii ".") rest with
    | some fraction =>
      if fraction.head?.any isDigitUnit then some (fraction.dropWhile isDigitUnit) else some rest
    | none => some rest
  else none

/-- What is left of a media query after one feature. -/
def stripFeature (text : Utf16) : Option Utf16 := do
  let text ← strip (ofAscii "(") text
  let rest ←
    match strip (ofAscii "prefers-color-scheme:") text with
    | some rest => stripAny ["light", "dark"] (skipSpace rest)
    | none =>
      match strip (ofAscii "prefers-reduced-motion:") text with
      | some rest => stripAny ["reduce", "no-preference"] (skipSpace rest)
      | none => do
        let rest ← stripAny ["min-width:", "max-width:"] text
        let rest ← stripNumber (skipSpace rest)
        stripAny ["px", "em", "rem"] rest
  strip (ofAscii ")") rest

/-- The features of a media query, of which there are no more than it has units. -/
def areFeatures : ℕ → Utf16 → Bool
  | 0, _ => false
  | n + 1, text =>
    match stripFeature text with
    | none => false
    | some [] => true
    | some rest => (strip (ofAscii " and ") rest).any (areFeatures n)

def contains (word text : Utf16) : Bool := text.tails.any fun rest ↦ word.isPrefixOf rest

section Check

variable (platform : CssPlatform) (isAssetUrl : Option (Utf16 → Bool))

def mediaAllowed (params : Utf16) : Bool :=
  areFeatures (params.length + 1) (platform.toLowerCase params)

def schemeOf (params : Utf16) : Scheme :=
  let lower := platform.toLowerCase params
  if contains (ofAscii "prefers-color-scheme:dark") lower ||
      contains (ofAscii "prefers-color-scheme: dark") lower then .dark
  else .any

/-! ### Declarations -/

def isNone (value : Utf16) : Prop :=
  platform.toLowerCase (trimBy isWhiteUnit value) = ofAscii "none"

instance : DecidablePred (isNone platform) := fun _ ↦ inferInstanceAs (Decidable (_ = _))

/-- The problems that `checkDeclaration` adds, when there are not too many declarations. -/
def declarationProblems (mayHide : Bool) (scheme : Scheme) (decl : Declaration) :
    List SheetProblem :=
  let property := platform.toLowerCase decl.prop
  let named := fun detail : Utf16 ↦ property ++ ofAscii ": " ++ detail
  if decl.before.any (fun u ↦ !isWhiteUnit u) ∨ property ∉ PROPERTIES then
    [⟨.propertyNotAllowed, decl.prop⟩]
  else if decl.important then [valueNotAllowed (ofAscii "!important")]
  else if decl.value.length > MAX_VALUE_LENGTH then
    [⟨.tooLong, property ++ ofAscii " value longer than " ++ decimal MAX_VALUE_LENGTH ++
      ofAscii " characters"⟩]
  else if property = ofAscii "display" ∧ isNone platform decl.value ∧ mayHide = false then
    [valueNotAllowed (ofAscii "display: none could hide the form")]
  else
    let outline := (outlineProblem platform property decl.value).or
      (outlineValueProblem platform property decl.value scheme)
    let unreadable := if mayHide then none else legibilityProblem platform property decl.value
    match outline.or unreadable with
    | some detail => [valueNotAllowed (named detail)]
    | none =>
      (checkValue platform property decl.value isAssetUrl).map fun problem ↦
        ⟨problem.code, named problem.detail⟩

def checkDeclaration (mayHide : Bool) (scheme : Scheme) (decl : Declaration)
    (progress : Progress) : Progress :=
  let progress := { progress with declarations := progress.declarations + 1 }
  if progress.declarations > MAX_DECLARATIONS then
    { progress.add .tooManyDeclarations (moreThan MAX_DECLARATIONS) none with stopped := true }
  else progress.addAll (declarationProblems platform isAssetUrl mayHide scheme decl) decl.start

/-! ### Rules -/

def declaration? : CssNode → Option Declaration
  | .decl decl => some decl
  | _ => none

/-- The last declaration of one of some properties. -/
def lastOf (properties : List String) (nodes : List CssNode) : Option Declaration :=
  ((nodes.filterMap declaration?).filter fun decl ↦
    platform.toLowerCase decl.prop ∈ properties.map ofAscii).getLast?

def checkWhole (nodes : List CssNode) (scheme : Scheme) (ownsGround : Bool) (progress : Progress) :
    Progress :=
  let text := lastOf platform ["color"] nodes
  let ground := lastOf platform ["background-color", "background"] nodes
  match text, text.bind fun decl ↦ readColour platform decl.value with
  | some decl, some a =>
    let b := ground.bind fun decl ↦ readColour platform decl.value
    if b.any (sameColour platform a) then
      progress.add .valueNotAllowed (ofAscii "color: the same as the background") decl.start
    else
      let own := b.any (fun b ↦ b.key.isSome && !b.clear) && !isSurface platform b scheme
      if !own && !ownsGround && isSurface platform (some a) scheme then
        progress.add .valueNotAllowed (ofAscii "color: the same as the page behind it") decl.start
      else progress
  | _, _ => progress

/-- What is read of the selectors of a rule, and what is wrong with them. -/
def readSelectors (selector : Utf16) : List (List ReadCompound) × List SheetProblem :=
  if selector.length > MAX_SELECTOR_LENGTH then
    ([], [⟨.tooLong, ofAscii "selector longer than " ++ decimal MAX_SELECTOR_LENGTH ++
      ofAscii " characters"⟩])
  else
    let list := selector.splitOn 0x2C
    if list.length > MAX_SELECTORS then
      ([], [⟨.tooLong, moreThan MAX_SELECTORS ++ ofAscii " selectors"⟩])
    else
      (list.filterMap fun one ↦ (readSelector one).toOption,
        list.filterMap fun one ↦
          match readSelector one with
          | .error problem => some problem
          | .ok _ => none)

def mayHideRule (compounds : List (List ReadCompound)) : Bool :=
  decide (compounds ≠ []) && decide (mayBeHidden compounds)

def checkChild (mayHide : Bool) (scheme : Scheme) (child : CssNode) (progress : Progress) :
    Progress :=
  match child with
  | .decl decl => checkDeclaration platform isAssetUrl mayHide scheme decl progress
  | .rule _ _ start => progress.add .selectorNotAllowed (ofAscii "a nested rule") start
  | .atRule name _ _ _ start =>
    progress.add .atRuleNotAllowed (0x40 :: (name ++ ofAscii " inside a rule")) start
  | .comment => progress

def checkRule (selector : Utf16) (nodes : List CssNode) (start : Start) (scheme : Scheme)
    (progress : Progress) : Progress :=
  let progress := { progress with rules := progress.rules + 1 }
  if progress.rules > MAX_RULES then
    { progress.add .tooManyRules (moreThan MAX_RULES) none with stopped := true }
  else
    let (compounds, problems) := readSelectors selector
    let progress := progress.addAll problems start
    let mayHide := mayHideRule compounds
    let progress := if mayHide then progress
      else checkWhole platform nodes scheme (ownsBackground compounds) progress
    untilStopped (checkChild platform isAssetUrl mayHide scheme) nodes progress

/-- `visit`, of a node in a media query. -/
def visitInMedia (scheme : Scheme) (node : CssNode) (progress : Progress) : Progress :=
  match node with
  | .decl decl => progress.add .rootDeclaration decl.prop decl.start
  | .rule selector nodes start => checkRule platform isAssetUrl selector nodes start scheme progress
  | .atRule name _ _ _ start =>
    progress.add .atRuleNotAllowed (0x40 :: (name ++ ofAscii " inside @media")) start
  | .comment => progress

def checkAtRule (name params : Utf16) (rawParams : Bool) (nodes : Option (List CssNode))
    (start : Start) (progress : Progress) : Progress :=
  if name ≠ ofAscii "media" then progress.add .atRuleNotAllowed (0x40 :: name) start
  else
    match nodes with
    | none => progress.add .atRuleNotAllowed (ofAscii "@media without a block") start
    | some nodes =>
      if params.length > MAX_PARAMS_LENGTH ∨ rawParams ∨ mediaAllowed platform params = false then
        progress.add .mediaQueryNotAllowed params start
      else untilStopped (visitInMedia platform isAssetUrl (schemeOf platform params)) nodes progress

/-- `visit`, of a node at the root. -/
def visit (node : CssNode) (progress : Progress) : Progress :=
  match node with
  | .decl decl => progress.add .rootDeclaration decl.prop decl.start
  | .rule selector nodes start => checkRule platform isAssetUrl selector nodes start .any progress
  | .atRule name params rawParams nodes start =>
    checkAtRule platform isAssetUrl name params rawParams nodes start progress
  | .comment => progress

/-! ### The check -/

/-- How many bytes a text has in UTF-8, with a replacement for a surrogate that stands alone. -/
def utf8Length (text : Utf16) : ℕ :=
  ((codePoints text).map fun point ↦
    if point.value < 0x80 then 1 else if point.value < 0x800 then 2
    else if point.value < 0x10000 then 3 else 4).sum

/-- Whether a text is more than so many bytes, which its length alone may tell. -/
def tooLarge (css : Utf16) : Option Utf16 :=
  if css.length > MAX_STYLESHEET_BYTES then some (decimal css.length ++ ofAscii "+ bytes")
  else if css.length * 3 > MAX_STYLESHEET_BYTES ∧ utf8Length css > MAX_STYLESHEET_BYTES then
    some (decimal (utf8Length css) ++ ofAscii " bytes")
  else none

/-- The issue of the NUL byte after so much text. -/
def nulIssue (before : Utf16) : StylesheetIssue :=
  let lines := before.splitOn 0x0A
  ⟨.nulByte, ofAscii "NUL byte", some lines.length, some ((lines.getLastD []).length + 1)⟩

def checkStylesheet (parse : Utf16 → Except Unparsable (List CssNode)) (css : Utf16) :
    List StylesheetIssue :=
  match tooLarge css with
  | some detail => (Progress.empty.add .tooLarge detail none).issues
  | none =>
    if 0 ∈ css then [nulIssue (css.takeWhile (· ≠ 0))]
    else
      match parse css with
      | .error failure =>
        [⟨.unparsable, boundDetail (failure.reason.getD (ofAscii "unreadable")), failure.line,
          failure.column⟩]
      | .ok root => (untilStopped (visit platform isAssetUrl) root Progress.empty).issues

end Check

end Odudu.DomainTheme.Stylesheets
