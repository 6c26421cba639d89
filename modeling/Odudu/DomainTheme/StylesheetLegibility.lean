import Odudu.DomainTheme.StylesheetValues

/-!
# What a needed part must keep

`stylesheet-legibility.ts`.  `readColour` is the colour that a value names, `legibilityProblem`
says why a value makes a part that is needed unreadable or takes it away, and `outlineProblem`
and `outlineValueProblem` why it takes the focus outline.
-/

set_option autoImplicit false

namespace Odudu.DomainTheme.Stylesheets

open Texts Styles Numbers

def INVISIBLE_RATIO : ℚ := 3 / 2

def MIN_FONT_PX : ℚ := 12

/-- `(MIN_FONT_PX / EM_PX) * 100` -/
def MIN_FONT_PERCENT : ℚ := 75

def MIN_BOX_PX : ℚ := 16

def MIN_BOX_PERCENT : ℚ := 10

def MAX_SPACE_PX : ℚ := 128

def MAX_SPACE_PERCENT : ℚ := 50

def MIN_ALPHA : ℚ := 1 / 2

def EM_PX : ℚ := 16

def NAMED : List (Utf16 × Utf16) :=
  [("black", "000000"), ("silver", "c0c0c0"), ("gray", "808080"), ("grey", "808080"),
    ("white", "ffffff"), ("maroon", "800000"), ("red", "ff0000"), ("purple", "800080"),
    ("fuchsia", "ff00ff"), ("green", "008000"), ("lime", "00ff00"), ("olive", "808000"),
    ("yellow", "ffff00"), ("navy", "000080"), ("blue", "0000ff"), ("teal", "008080"),
    ("aqua", "00ffff"), ("orange", "ffa500")].map fun entry ↦ (ofAscii entry.1, ofAscii entry.2)

def BOX_PROPERTIES : List Utf16 :=
  ["width", "max-width", "inline-size", "max-inline-size", "height", "max-height", "block-size",
    "max-block-size"].map ofAscii

def SMALL_KEYWORDS : List Utf16 := ["xx-small", "x-small"].map ofAscii

/-- A key is six digits, or a token as `var:name`. -/
structure Colour where
  key : Option Utf16
  clear : Bool

def VAR : Utf16 := ofAscii "var:"

section Platform

variable (platform : CssPlatform)

/-! ### Colours -/

def wordValue : ValueNode → Option Utf16
  | .word value => some value
  | _ => none

/-- The words among the arguments of a function. -/
def parts (nodes : List ValueNode) : List Utf16 :=
  (nodes.filterMap wordValue).filter fun value ↦ value ≠ []

def endsIn (unit text : Utf16) : Bool := unit.isSuffixOf text

def percent : Utf16 := ofAscii "%"

def channelValue (text : Utf16) (scale : ℚ) : Option ℚ :=
  (parseFloat platform text).map fun n ↦
    let value := if endsIn percent text then
      platform.rounding.round (platform.rounding.round (n / 100) * scale) else n
    max 0 (min scale value)

def alphaOf : Option Utf16 → Option ℚ
  | none => some 1
  | some text => channelValue platform text 1

/-- `alpha < MIN_ALPHA`, which a number that is none is not. -/
def isFaint (alpha : Option ℚ) : Bool := alpha.any fun alpha ↦ decide (alpha < MIN_ALPHA)

def hexDigits (n : ℕ) : Utf16 := (Nat.digits 16 n).reverse.map hexDigit

/-- `Math.round(value).toString(16).padStart(2, '0')` -/
def channelHex : Option ℚ → Utf16
  | none => ofAscii "NaN"
  | some value =>
    let digits := hexDigits ⌊value + 1 / 2⌋.toNat
    List.replicate (2 - digits.length) 0x30 ++ digits

def fromFunction (value : Utf16) (nodes : List ValueNode) : Option Colour :=
  let name := platform.toLowerCase value
  let args := parts nodes
  if name = ofAscii "var" then some ⟨some (VAR ++ args.headD []), false⟩
  else if args.length < 3 ∨ args.length > 4 then none
  else
    let clear := isFaint (alphaOf platform args[3]?)
    if name = ofAscii "rgb" ∨ name = ofAscii "rgba" then
      some ⟨some ((args.take 3).flatMap fun arg ↦ channelHex (channelValue platform arg 255)), clear⟩
    else if name = ofAscii "hsl" ∨ name = ofAscii "hsla" then
      let channel := fun i ↦ channelValue platform (args[i]?.getD (ofAscii "0")) 1
      some ⟨some (platform.hsl (parseFloat platform (args.headD (ofAscii "0"))) (channel 1)
        (channel 2)), clear⟩
    else none

/-- Each digit twice. -/
def doubled (digits : Utf16) : Utf16 := digits.flatMap fun u ↦ [u, u]

def fromWord (word : Utf16) : Option Colour :=
  let lower := platform.toLowerCase word
  if lower = ofAscii "transparent" then some ⟨none, true⟩
  else
    match NAMED.lookup lower with
    | some named => some ⟨some named, false⟩
    | none =>
      (matchHex lower).map fun digits ↦
        let full := if digits.length ≤ 4 then doubled digits else digits
        let alpha := if full.length = 8 then
          platform.rounding.round ((hexNumber (full.drop 6) : ℚ) / 255) else 1
        ⟨some (full.take 6), decide (alpha < MIN_ALPHA)⟩

def colourOf : ValueNode → Option Colour
  | .word value => fromWord platform value
  | .function value _ nodes => fromFunction platform value nodes
  | _ => none

/-- The last colour that a value names. -/
def readColour (value : Utf16) : Option Colour :=
  ((platform.valueParser value).filterMap (colourOf platform)).getLast?

def isClear (value : Utf16) : Bool := (readColour platform value).any Colour.clear

def sameColour (a b : Colour) : Bool :=
  match a.key, b.key with
  | some x, some y =>
    if VAR.isPrefixOf x || VAR.isPrefixOf y then x == y
    else (platform.contrastRatio (0x23 :: x) (0x23 :: y)).any fun ratio ↦
      decide (ratio < INVISIBLE_RATIO)
  | _, _ => false

/-! ### Lengths -/

/-- The units of `lengthPx`. -/
def LENGTH_UNITS : List Utf16 := ["", "px", "em", "rem", "%", "ch"].map ofAscii

def lengthPx : ValueNode → Option ℚ
  | .word value =>
    ((matchNumeral (platform.toLowerCase value)).filter fun numeral ↦
      numeral.rest ∈ LENGTH_UNITS).map fun numeral ↦
        let n := numberOf platform numeral
        if numeral.rest = ofAscii "em" ∨ numeral.rest = ofAscii "rem" then
          platform.rounding.round (n * EM_PX)
        else n
  | _ => none

def isPercent : ValueNode → Bool
  | .word value => endsIn percent value
  | _ => false

/-- Whether a length is below a floor, which a share of what is around it has another of. -/
def isBelow (floor floorPercent : ℚ) (node : ValueNode) : Bool :=
  (lengthPx platform node).any fun px ↦
    decide (px < if isPercent node then floorPercent else floor)

def isAbove (ceiling ceilingPercent : ℚ) (node : ValueNode) : Bool :=
  (lengthPx platform node).any fun px ↦
    decide (px > if isPercent node then ceilingPercent else ceiling)

/-- The node that is all of a value. -/
def onlyNode (nodes : List ValueNode) : Option ValueNode :=
  match meaningful nodes with
  | [node] => some node
  | _ => none

def isSmallKeyword : ValueNode → Bool
  | .word value => decide (platform.toLowerCase value ∈ SMALL_KEYWORDS)
  | _ => false

def fontSizeProblem (node : ValueNode) : Bool :=
  isSmallKeyword platform node || isBelow platform MIN_FONT_PX MIN_FONT_PERCENT node

def isSpacing (property : Utf16) : Bool :=
  (ofAscii "margin").isPrefixOf property || (ofAscii "padding").isPrefixOf property

/-- `only.value`, of a node that has one. -/
def nodeValue : ValueNode → Utf16
  | .div value | .word value | .string value _ | .unicodeRange value | .function value _ _ => value
  | .space | .comment => []

/-- The letters at the end of a text in any case. -/
def endsInFold (unit text : Utf16) : Bool := endsIn unit (lowerText text)

def letterSpacingProblem (node : ValueNode) : Bool :=
  let raw := ((wordValue node).elim (some 0) (parseFloat platform)).getD 0
  let value := nodeValue node
  decide (raw < 0) &&
    ((endsInFold (ofAscii "em") value || endsInFold (ofAscii "ch") value) &&
        decide (raw < platform.rounding.round (-1 / 20)) ||
      endsInFold (ofAscii "px") value && decide (raw < -1))

def lineHeightProblem (node : ValueNode) : Bool :=
  (wordValue node).any fun value ↦
    let ending := value.getLast?.any fun u ↦ isLetterUnit u || u == 0x25
    if ending then decide ((lengthPx platform node).getD EM_PX < MIN_BOX_PX / 2)
    else (parseFloat platform value).any fun n ↦ decide (n < platform.rounding.round (4 / 5))

def legibilityProblem (property value : Utf16) : Option Utf16 :=
  let nodes := meaningful (platform.valueParser value)
  let only := onlyNode (platform.valueParser value)
  if property = ofAscii "font-size" ∧ only.any (fontSizeProblem platform) then
    some (ofAscii "text smaller than 12px")
  else if property ∈ BOX_PROPERTIES ∧ only.any (isBelow platform MIN_BOX_PX MIN_BOX_PERCENT) then
    some (ofAscii "a box too small to read")
  else if isSpacing property ∧ nodes.any (isAbove platform MAX_SPACE_PX MAX_SPACE_PERCENT) then
    some (ofAscii "space that pushes the part off the page")
  else if property = ofAscii "letter-spacing" ∧ only.any (letterSpacingProblem platform) then
    some (ofAscii "letters drawn on one another")
  else if property = ofAscii "line-height" ∧ only.any (lineHeightProblem platform) then
    some (ofAscii "lines drawn on one another")
  else if property = ofAscii "color" ∧ isClear platform value then
    some (ofAscii "text with no colour")
  else none

/-! ### Outlines -/

def OUTLINE_STYLES : List Utf16 := ["none", "hidden"].map ofAscii

def outlineNodeProblem (property : Utf16) (node : ValueNode) : Bool :=
  (wordValue node).any fun value ↦
    property ≠ ofAscii "outline-width" ∧ property ≠ ofAscii "outline-color" ∧
        platform.toLowerCase value ∈ OUTLINE_STYLES ∨
      property ≠ ofAscii "outline-color" ∧ (lengthPx platform node).any fun px ↦ decide (px < 1)

def outlineProblem (property value : Utf16) : Option Utf16 :=
  if (ofAscii "outline").isPrefixOf property = false ∨ property = ofAscii "outline-offset" then none
  else if (platform.valueParser value).any (outlineNodeProblem platform property) then
    some (ofAscii "no focus outline")
  else if property ≠ ofAscii "outline-width" ∧ property ≠ ofAscii "outline-style" ∧
      isClear platform value then
    some (ofAscii "a clear focus outline")
  else none

/-- `any` is a rule that may be drawn in either scheme. -/
inductive Scheme where
  | light
  | dark
  | any

def LIGHT_SURFACES : List Utf16 := ["e7eae9", "ffffff", "f3f5f4"].map ofAscii

def DARK_SURFACES : List Utf16 := ["151a19", "1c2221", "121716"].map ofAscii

def SURFACE_TOKENS : List Utf16 :=
  ["var:--surface-page", "var:--surface-panel", "var:--surface-sunken"].map ofAscii

def isSurface (colour : Option Colour) (scheme : Scheme) : Bool :=
  match colour with
  | some ⟨some key, clear⟩ =>
    let near := fun list : List Utf16 ↦ list.any fun surface ↦
      sameColour platform ⟨some key, clear⟩ ⟨some surface, false⟩
    if key ∈ SURFACE_TOKENS then true
    else
      match scheme with
      | .dark => near DARK_SURFACES
      | .light => near LIGHT_SURFACES
      | .any => near LIGHT_SURFACES || DARK_SURFACES.contains key
  | _ => false

def CSS_WIDE : List Utf16 :=
  ["initial", "unset", "inherit", "revert", "revert-layer"].map ofAscii

def MAX_OFFSET_PX : ℚ := 16

def outlineValueProblem (property value : Utf16) (scheme : Scheme) : Option Utf16 :=
  let lower := platform.toLowerCase (trimBy isWhiteUnit value)
  if (property = ofAscii "outline" ∨ property = ofAscii "outline-style" ∨
      property = ofAscii "outline-width") ∧ lower ∈ CSS_WIDE then
    some (ofAscii "a focus outline given back to the browser")
  else if property = ofAscii "outline-offset" ∧
      (((platform.valueParser value).find? fun node ↦ (wordValue node).isSome).bind
        (lengthPx platform)).any (fun px ↦ decide (px > MAX_OFFSET_PX)) then
    some (ofAscii "an outline pushed away")
  else if (property = ofAscii "outline" ∨ property = ofAscii "outline-color") ∧
      isSurface platform (readColour platform value) scheme then
    some (ofAscii "an outline the colour of the page")
  else none

end Platform

end Odudu.DomainTheme.Stylesheets
