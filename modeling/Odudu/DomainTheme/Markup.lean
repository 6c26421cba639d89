import Odudu.DomainTheme.Slots

/-!
# The markup of a page template

The part of `checkTemplate` of `template.ts` that reads a template's tags and the tree the
parser makes of them: which elements and attributes there are, whether each tag of the source is
one of the tree, and how many slots stand in its text.  Nodes are told apart by their paths.
-/

set_option autoImplicit false

namespace Odudu.DomainTheme.Templates

open Texts

def MAX_TEMPLATE_DEPTH : ℕ := 32

def MAX_TEMPLATE_ELEMENTS : ℕ := 2000

inductive TemplateIssueCode where
  | tooLarge
  | tooManySlots
  | malformedSlot
  | unknownSlot
  | unknownMessageKey
  | missingPart
  | repeatedPart
  | slotInAttribute
  | slotInRawText
  | comment
  | elementNotAllowed
  | attributeNotAllowed
  | hrefNotHttps
  | linkRel
  | imgSrc
  | imgAlt
  | unterminated
  | unparsedTag
  | unclosedElement
  | tooDeep
  | tooManyElements
  | formPair
  | formPlacement
  | partPlacement
  deriving DecidableEq

/-- What `add` is called with. -/
structure Problem where
  code : TemplateIssueCode
  detail : Utf16
  offset : Option ℕ

/-! ### What the parser gives -/

structure SourceLocation where
  startOffset : ℕ
  endOffset : ℕ
  /-- Where the start tag begins, if the source has one. -/
  startTag : Option ℕ
  endTag : Bool

inductive Node where
  | comment (location : Option SourceLocation)
  | text (value : Utf16) (location : Option SourceLocation)
  | element (tagName : Utf16) (inHtml : Bool) (attrs : List (Utf16 × Utf16))
      (location : Option SourceLocation) (childNodes : List Node)

def Node.location : Node → Option SourceLocation
  | comment location | text _ location | element _ _ _ location _ => location

structure ParseError where
  code : Utf16
  startOffset : ℕ

/-- What the check uses of the language and of the HTML parser. -/
structure Platform where
  toLowerCase : Utf16 → Utf16
  /-- `new URL(value).protocol`, if it does not throw. -/
  urlProtocol : Utf16 → Option Utf16
  /-- `parseFragment` of a body: its errors and its children. -/
  parseFragment : Utf16 → List ParseError × List Node

structure TemplateOptions where
  isAssetUrl : Option (Utf16 → Bool)
  isMessageKey : Option (Utf16 → Bool)

/-! ### Names -/

def ALLOWED_ELEMENTS : List Utf16 :=
  ["a", "abbr", "address", "article", "aside", "b", "bdi", "bdo", "blockquote", "br", "caption",
    "cite", "code", "dd", "div", "dl", "dt", "em", "figcaption", "figure", "footer", "h1", "h2",
    "h3", "h4", "h5", "h6", "header", "hr", "i", "img", "li", "mark", "nav", "ol", "p", "q", "s",
    "section", "small", "span", "strong", "sub", "sup", "table", "tbody", "td", "tfoot", "th",
    "thead", "time", "tr", "u", "ul", "wbr"].map ofAscii

def RAW_TEXT : List Utf16 :=
  ["title", "textarea", "style", "script", "noscript", "xmp", "iframe", "noembed", "noframes",
    "plaintext"].map ofAscii

def elementAttributes (tag : Utf16) : List Utf16 :=
  if tag = ofAscii "a" then ["href", "rel"].map ofAscii
  else if tag = ofAscii "img" then ["src", "alt"].map ofAscii
  else []

def GLOBAL_ATTRIBUTES : List Utf16 := ["class", "lang", "dir", "role"].map ofAscii

def OMISSIBLE_END : List Utf16 :=
  ["p", "li", "dd", "dt", "td", "th", "tr", "tbody", "thead", "tfoot", "caption", "br", "img",
    "hr", "wbr"].map ofAscii

def NOT_FOR_PARTS : List Utf16 := ["a", "table", "tbody", "thead", "tfoot", "tr"].map ofAscii

def VOID_ELEMENTS : List Utf16 := ["br", "hr", "img", "wbr"].map ofAscii

def hasBraces : Utf16 → Bool
  | [] => false
  | u :: rest => OPEN.isPrefixOf (u :: rest) || CLOSE.isPrefixOf (u :: rest) || hasBraces rest

/-- `/^aria-[a-z]+(?:-[a-z]+)*$/` -/
def isAria (name : Utf16) : Bool :=
  let lead := ofAscii "aria-"
  lead.isPrefixOf name &&
    ((name.drop lead.length).splitOn 0x2D).all fun word ↦ !word.isEmpty && word.all isLowerUnit

/-! ### Attributes -/

section Attributes

variable (platform : Platform) (options : TemplateOptions)

def isHttps (value : Utf16) : Bool :=
  (value.take 6).map lowerUnit = ofAscii "https:" &&
    !value.any (fun u ↦ decide (u.toNat ≤ 0x20 ∨ u.toNat = 0x7F)) &&
    platform.urlProtocol value = some (ofAscii "https:")

def relTokens (value : Option Utf16) : List Utf16 :=
  ((platform.toLowerCase (value.getD [])).splitOnP isWhiteUnit).filter fun token ↦ !token.isEmpty

def attributeProblems (tag : Utf16) (start : Option ℕ) :
    List (Utf16 × Utf16) → List Problem
  | [] => []
  | (name, value) :: attrs =>
    let detail := tag ++ ofAscii " " ++ name
    (if hasBraces name || hasBraces value then [⟨.slotInAttribute, detail, start⟩]
      else if name ∉ GLOBAL_ATTRIBUTES ∧ isAria name = false ∧ name ∉ elementAttributes tag then
        [⟨.attributeNotAllowed, detail, start⟩]
      else []) ++ attributeProblems tag start attrs

def checkAttributes (tag : Utf16) (attrs : List (Utf16 × Utf16)) (start : Option ℕ) :
    List Problem :=
  let value := fun name ↦ attrs.lookup (ofAscii name)
  let rel := relTokens platform (value "rel")
  attributeProblems tag start attrs ++
    (if tag = ofAscii "a" then
      (if (value "href").any (isHttps platform) then []
        else [⟨.hrefNotHttps, ofAscii "a href", start⟩]) ++
      (if ofAscii "noopener" ∈ rel ∧ ofAscii "noreferrer" ∈ rel then []
        else [⟨.linkRel, ofAscii "a rel", start⟩])
      else []) ++
    if tag = ofAscii "img" then
      (if (value "src").any (options.isAssetUrl.getD fun _ ↦ false) then []
        else [⟨.imgSrc, ofAscii "img src", start⟩]) ++
      (if (value "alt").isSome then [] else [⟨.imgAlt, ofAscii "img alt", start⟩])
    else []

end Attributes

/-! ### The tags of the source -/

structure Tag where
  index : ℕ
  closing : Bool
  name : Utf16

def LT : UInt16 := 0x3C

def GT : UInt16 := 0x3E

def SLASH : UInt16 := 0x2F

/-- `TAG_NAME`, at the head of a text: whether it closes, its name and its length. -/
def tagName (text : Utf16) : Option (Bool × Utf16 × ℕ) :=
  match text with
  | [] => none
  | u :: rest =>
    let closing := rest.head? == some SLASH
    let rest := if closing then rest.drop 1 else rest
    if u = LT ∧ rest.head?.any isLetterUnit then
      let name := rest.takeWhile fun v ↦ !(isWhiteUnit v || v == SLASH || v == GT)
      some (closing, name, name.length + if closing then 2 else 1)
    else none

/-- The matches in a text from an index on, of which so many units are of the last match. -/
def tagsFrom (index skip : ℕ) : Utf16 → List Tag
  | [] => []
  | u :: rest =>
    if skip > 0 then tagsFrom (index + 1) (skip - 1) rest
    else
      match tagName (u :: rest) with
      | none => tagsFrom (index + 1) 0 rest
      | some (closing, name, length) =>
        ⟨index, closing, name⟩ :: tagsFrom (index + 1) (length - 1) rest

structure TagScan where
  problems : List Problem
  sourceTags : List ℕ
  /-- Whether the check ends here. -/
  returned : Bool

/-- The loop over the tags, the innermost open element first. -/
def scanTags (platform : Platform) (opened : List Utf16) (elements : ℕ) (scan : TagScan) :
    List Tag → TagScan
  | [] => scan
  | tag :: tags =>
    let name := platform.toLowerCase tag.name
    let scan := if name ∈ ALLOWED_ELEMENTS then scan
      else { scan with problems := scan.problems ++ [⟨.elementNotAllowed, name, some tag.index⟩] }
    if tag.closing then
      let opened := if opened.head? = some name then opened.tail else opened
      scanTags platform opened elements scan tags
    else
      let scan := { scan with sourceTags := scan.sourceTags ++ [tag.index] }
      let opened := if name ∈ VOID_ELEMENTS then opened else name :: opened
      if opened.length > MAX_TEMPLATE_DEPTH then
        { scan with
          problems := scan.problems ++ [⟨.tooDeep, decimal MAX_TEMPLATE_DEPTH, some tag.index⟩]
          returned := true }
      else if elements + 1 > MAX_TEMPLATE_ELEMENTS then
        { scan with
          problems := scan.problems ++
            [⟨.tooManyElements, decimal MAX_TEMPLATE_ELEMENTS, some tag.index⟩]
          returned := true }
      else scanTags platform opened (elements + 1) scan tags

/-- `text.lastIndexOf(part, last)` -/
def lastIndexOf (text part : Utf16) (last : ℕ) : Option ℕ :=
  ((List.range (last + 1)).filter fun i ↦ part.isPrefixOf (text.drop i)).getLast?

def constructStart (template : Utf16) (sourceTags : List ℕ) (error : ParseError) : ℕ :=
  if error.code = ofAscii "eof-in-tag" then sourceTags.getLast?.getD error.startOffset
  else if error.code = ofAscii "eof-in-comment" then
    (lastIndexOf template (ofAscii "<!--") error.startOffset).getD error.startOffset
  else error.startOffset

/-! ### The tree -/

/-- Where a child begins that the source has after a sibling that follows it in the tree. -/
def firstLifted (children : List Node) : Option ℕ :=
  let step := fun (node : Node) (loop : Option ℕ × Option ℕ) ↦
    match node.location with
    | none => loop
    | some location =>
      let found := if loop.1.any fun latest ↦ location.endOffset > latest then
        some location.startOffset else loop.2
      (some (loop.1.elim location.startOffset (min location.startOffset)), found)
  (children.foldr step (none, none)).2

structure Walk where
  problems : List Problem := []
  «explicit» : List ℕ := []
  slotsInText : ℕ := 0
  /-- The node that `form.open` stands in, and the one that `form.close` does. -/
  formOpen : Option (List ℕ) := none
  formClose : Option (List ℕ) := none
  treeElements : ℕ := 0
  stopped : Bool := false

def Walk.add (walk : Walk) (problems : List Problem) : Walk :=
  { walk with problems := walk.problems ++ problems }

def checkOrder (children : List Node) : List Problem :=
  match firstLifted children with
  | none => []
  | some start => [⟨.partPlacement, ofAscii "markup between table parts", some start⟩]

section Tree

variable (platform : Platform) (options : TemplateOptions)

/-- The visit of a text, whose parent is an element of that name, if it is one. -/
def visitText (parent : Option Utf16) (path : List ℕ) (walk : Walk) (value : Utf16)
    (start : Option ℕ) (parentStart : Option ℕ) : Walk :=
  match parent.filter (· ∈ RAW_TEXT) with
  | some name =>
    if hasBraces value then walk.add [⟨.slotInRawText, name, parentStart⟩] else walk
  | none =>
    let found := (scanSlots value).filter fun slot ↦ slot.kind ≠ .malformed
    let parts := (found.filter fun slot ↦ slot.kind = .part).map Slot.name
    let walk := { walk with
      slotsInText := walk.slotsInText + found.length
      formOpen := if ofAscii "form.open" ∈ parts then some path else walk.formOpen
      formClose := if ofAscii "form.close" ∈ parts then some path else walk.formClose }
    match parts, parent with
    | part :: _, some name =>
      if name ∈ NOT_FOR_PARTS then
        walk.add [⟨.partPlacement, part ++ ofAscii " in " ++ name, start⟩]
      else walk
    | _, _ => walk

/-- What is noted of an element before anything of it is judged. -/
def visitStart (walk : Walk) (tagName : Utf16) : Option SourceLocation → Walk
  | none => walk
  | some location =>
    match location.startTag with
    | none => walk
    | some offset =>
      let walk := { walk with «explicit» := walk.explicit ++ [offset] }
      if location.endTag = false ∧ tagName ∉ OMISSIBLE_END then
        walk.add [⟨.unclosedElement, tagName ++ ofAscii " has no end tag in the source",
          some offset⟩]
      else walk

def elementProblems (tagName : Utf16) (inHtml : Bool) (attrs : List (Utf16 × Utf16))
    (start : Option ℕ) : List Problem :=
  if inHtml = false ∨ tagName ∉ ALLOWED_ELEMENTS then [⟨.elementNotAllowed, tagName, start⟩]
  else checkAttributes platform options tagName attrs start

mutual

/-- The visit of a node, given the name and the start of its parent if that is an element, the
parent's path, the node's place among the parent's children and its depth. -/
def visit (parent : Option (Utf16 × Option ℕ)) (path : List ℕ) (place depth : ℕ) (walk : Walk) :
    Node → Walk
  | .comment location =>
    if walk.stopped then walk
    else walk.add [⟨.comment, ofAscii "comments are not allowed", location.map (·.startOffset)⟩]
  | .text value location =>
    if walk.stopped then walk
    else visitText (parent.map Prod.fst) path walk value (location.map (·.startOffset))
      (parent.bind Prod.snd)
  | .element tagName inHtml attrs location childNodes =>
    if walk.stopped then walk
    else
      let walk := { walk with treeElements := walk.treeElements + 1 }
      let start := location.bind SourceLocation.startTag
      if walk.treeElements > MAX_TEMPLATE_ELEMENTS then
        { walk.add [⟨.tooManyElements, decimal MAX_TEMPLATE_ELEMENTS,
            location.map (·.startOffset)⟩] with stopped := true }
      else if depth > MAX_TEMPLATE_DEPTH then
        (visitStart walk tagName location).add
          [⟨.tooDeep, decimal MAX_TEMPLATE_DEPTH, start⟩]
      else
        let walk := (visitStart walk tagName location).add
          (elementProblems platform options tagName inHtml attrs start ++ checkOrder childNodes)
        visitAll (some (tagName, start)) (place :: path) 0 (depth + 1) walk childNodes

def visitAll (parent : Option (Utf16 × Option ℕ)) (path : List ℕ) (place depth : ℕ)
    (walk : Walk) : List Node → Walk
  | [] => walk
  | node :: nodes =>
    visitAll parent path (place + 1) depth (visit parent path place depth walk node) nodes

end

/-! ### The whole -/

structure Markup where
  problems : List Problem
  slotsInText : ℕ
  /-- Whether the check ends with these. -/
  returned : Bool

def checkMarkup (template : Utf16) : Markup :=
  let scan := scanTags platform [] 0 ⟨[], [], false⟩ (tagsFrom 0 0 template)
  if scan.returned then ⟨scan.problems, 0, true⟩
  else
    let (errors, childNodes) := platform.parseFragment template
    let unterminated := (errors.filter fun error ↦ (ofAscii "eof-").isPrefixOf error.code).map
      fun error ↦ (⟨.unterminated, error.code,
        some (constructStart template scan.sourceTags error)⟩ : Problem)
    let walk := visitAll platform options none [] 0 1
      ({} : Walk) childNodes
    let apart :=
      if walk.formOpen.isSome && walk.formClose.isSome && walk.formOpen != walk.formClose then
        [⟨.formPair,
          ofAscii "form.open and form.close must be in the same element, not split across cells",
          none⟩]
      else []
    let unparsed := (scan.sourceTags.filter fun offset ↦ offset ∉ walk.explicit).map
      fun offset ↦ (⟨.unparsedTag, slice template offset (offset + 16), some offset⟩ : Problem)
    ⟨scan.problems ++ unterminated ++ checkOrder childNodes ++ walk.problems ++ apart ++ unparsed,
      walk.slotsInText, false⟩

end Tree

end Odudu.DomainTheme.Templates
