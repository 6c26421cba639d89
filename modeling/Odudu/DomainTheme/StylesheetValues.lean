import Odudu.DomainTheme.StylesheetSelectors
import Odudu.Numbers.Doubles

/-!
# Values of a tenant's stylesheet

`stylesheet-values.ts`.  A value is the nodes that the value parser makes of it, and
`checkValue` lists what is wrong with them.  A url that is kept is one that `isAssetUrl` takes
(`urls_of_node`).
-/

set_option autoImplicit false

namespace Odudu.DomainTheme.Stylesheets

open Texts Styles Numbers

/-! ### Nodes -/

inductive ValueNode where
  | space
  | comment
  | div (value : Utf16)
  | word (value : Utf16)
  | string (value : Utf16) (unclosed : Bool)
  | unicodeRange (value : Utf16)
  | function (value : Utf16) (unclosed : Bool) (nodes : List ValueNode)

/-- `node.type` -/
def ValueNode.type : ValueNode → Utf16
  | space => ofAscii "space"
  | comment => ofAscii "comment"
  | div _ => ofAscii "div"
  | word _ => ofAscii "word"
  | string _ _ => ofAscii "string"
  | unicodeRange _ => ofAscii "unicode-range"
  | function _ _ _ => ofAscii "function"

def ValueNode.isMeaningful : ValueNode → Bool
  | space | comment => false
  | _ => true

def meaningful (nodes : List ValueNode) : List ValueNode := nodes.filter ValueNode.isMeaningful

/-- What the check uses of the language and of the two parsers, and the arithmetic of colours. -/
structure CssPlatform where
  rounding : Rounding
  toLowerCase : Utf16 → Utf16
  lower_ascii : ∀ text : Utf16, (∀ u ∈ text, u.toNat < 0x80) → toLowerCase text = lowerText text
  valueParser : Utf16 → List ValueNode
  /-- `valueParser.stringify` -/
  stringify : List ValueNode → Utf16
  /-- `contrastRatio` of two `#rrggbb` colours, if it is a number. -/
  contrastRatio : Utf16 → Utf16 → Option ℚ
  /-- The six digits that `hsl` gives for a hue in degrees, a saturation and a lightness. -/
  hsl : Option ℚ → Option ℚ → Option ℚ → Utf16

/-! ### Numbers -/

/-- A decimal number at the head of a text, and what is after it. -/
structure Numeral where
  sign : Option UInt16
  whole : Utf16
  fraction : Utf16
  rest : Utf16

/-- `[+-]?(\d+\.?\d*|\.\d+)`, at the head of a text. -/
def matchNumeral (text : Utf16) : Option Numeral :=
  let sign := text.head?.filter fun u ↦ u == 0x2B || u == 0x2D
  let body := if sign.isSome then text.drop 1 else text
  let whole := body.takeWhile isDigitUnit
  let after := body.drop whole.length
  let pointed := after.head? == some 0x2E
  let fraction := if pointed then (after.drop 1).takeWhile isDigitUnit else []
  if whole = [] then
    if fraction = [] then none
    else some ⟨sign, whole, fraction, after.drop (1 + fraction.length)⟩
  else if pointed then some ⟨sign, whole, fraction, after.drop (1 + fraction.length)⟩
  else some ⟨sign, whole, [], after⟩

def digitsValue (digits : Utf16) : ℕ := digits.foldl (fun n u ↦ 10 * n + (u.toNat - 0x30)) 0

def Numeral.isNegative (numeral : Numeral) : Bool := numeral.sign == some 0x2D

def Numeral.magnitude (numeral : Numeral) : ℚ :=
  (digitsValue (numeral.whole ++ numeral.fraction) : ℚ) / 10 ^ numeral.fraction.length

def Numeral.value (numeral : Numeral) : ℚ :=
  if numeral.isNegative then -numeral.magnitude else numeral.magnitude

/-- The exponent at the head of a text, if there is one. -/
def exponentOf : Utf16 → ℤ
  | e :: rest =>
    if e = 0x65 ∨ e = 0x45 then
      let sign := rest.head?.filter fun u ↦ u == 0x2B || u == 0x2D
      let digits := (if sign.isSome then rest.drop 1 else rest).takeWhile isDigitUnit
      if sign = some 0x2D then -(digitsValue digits : ℤ) else digitsValue digits
    else 0
  | [] => 0

/-- Above every finite number of the language. -/
def BEYOND : ℚ := 2 ^ 1024

section Platform

variable (platform : CssPlatform)

/-- `Number(text)`, of the text of a numeral. -/
def numberOf (numeral : Numeral) : ℚ := platform.rounding.round numeral.value

/-- `Number.parseFloat` -/
def parseFloat (text : Utf16) : Option ℚ :=
  let text := text.dropWhile isWhiteUnit
  match matchNumeral text with
  | some numeral =>
    let exponent := exponentOf numeral.rest
    some (platform.rounding.round
      (if 0 ≤ exponent then numeral.value * 10 ^ exponent.toNat
        else numeral.value / 10 ^ (-exponent).toNat))
  | none =>
    if (ofAscii "-Infinity").isPrefixOf text then some (-BEYOND)
    else if (ofAscii "Infinity").isPrefixOf text || (ofAscii "+Infinity").isPrefixOf text then
      some BEYOND
    else none

/-! ### Words -/

def TOKENS : List Utf16 :=
  ["--border-strong", "--control-height", "--ease", "--focus-ring", "--font-mono", "--font-sans",
    "--hairline", "--ink-muted", "--ink-primary", "--label-line", "--motion-fast", "--radius-m",
    "--radius-s", "--shadow-overlay", "--signal-active", "--signal-active-ink", "--signal-danger",
    "--signal-danger-ink", "--space-1", "--space-2", "--space-3", "--space-4", "--space-6",
    "--space-8", "--surface-grid", "--surface-page", "--surface-panel", "--surface-sunken",
    "--target-min", "--type-12", "--type-13", "--type-15", "--type-20"].map ofAscii

def MAX_FUNCTION_DEPTH : ℕ := 4

def COLOURS : List Utf16 :=
  ["black", "silver", "gray", "grey", "white", "maroon", "red", "purple", "fuchsia", "green",
    "lime", "olive", "yellow", "navy", "blue", "teal", "aqua", "orange", "transparent",
    "currentcolor", "inherit", "initial", "unset"].map ofAscii

def KEYWORDS : List Utf16 :=
  ["none", "auto", "normal", "bold", "bolder", "lighter", "italic", "oblique", "solid", "dashed",
    "dotted", "double", "groove", "ridge", "inset", "outset", "hidden", "left", "right", "center",
    "start", "end", "justify", "top", "bottom", "uppercase", "lowercase", "capitalize",
    "underline", "overline", "line-through", "nowrap", "pre", "pre-wrap", "pre-line", "break-all",
    "keep-all", "break-word", "disc", "circle", "square", "decimal", "inside", "outside",
    "flex-start", "flex-end", "space-between", "space-around", "space-evenly", "stretch",
    "baseline", "row", "column", "wrap", "wrap-reverse", "row-reverse", "column-reverse", "cover",
    "contain", "fill", "scale-down", "no-repeat", "repeat", "repeat-x", "repeat-y", "medium",
    "thin", "thick", "min-content", "max-content", "fit-content", "xx-small", "x-small", "small",
    "large", "x-large", "xx-large", "smaller", "larger", "inline-flex"].map ofAscii

def DISPLAY : List Utf16 :=
  ["block", "inline", "inline-block", "flex", "grid", "none"].map ofAscii

def POSITION : List Utf16 := ["static", "relative"].map ofAscii

def OVERFLOW : List Utf16 := ["visible", "hidden", "auto"].map ofAscii

def CURSOR : List Utf16 :=
  ["auto", "default", "pointer", "text", "not-allowed", "help", "wait", "progress"].map ofAscii

def FONT_FAMILY_NAMES : List Utf16 :=
  ["ibm plex sans", "ibm plex mono", "system-ui", "sans-serif", "monospace", "serif"].map ofAscii

/-- The units of `NUMBER`. -/
def UNITS : List Utf16 := ["", "px", "em", "rem", "%", "ch", "fr", "deg"].map ofAscii

def isHexUnit (u : UInt16) : Bool :=
  isDigitUnit u || decide (0x61 ≤ u.toNat) && decide (u.toNat ≤ 0x66)

/-- The digits of `HEX`. -/
def matchHex : Utf16 → Option Utf16
  | 0x23 :: digits =>
    if digits.all isHexUnit && [3, 4, 6, 8].contains digits.length then some digits else none
  | _ => none

def COLOUR_FUNCTIONS : List Utf16 := ["rgb", "rgba", "hsl", "hsla"].map ofAscii

def URL_LIKE : List Utf16 :=
  ["url", "image-set", "-webkit-image-set", "src", "image", "cross-fade", "element",
    "paint"].map ofAscii

def URL_PROPERTIES : List Utf16 := ["background", "background-image"].map ofAscii

/-- `String.fromCodePoint` -/
def fromCodePoint (code : ℕ) : Utf16 :=
  if code < 0x10000 then [UInt16.ofNat code]
  else [UInt16.ofNat (0xD800 + (code - 0x10000) / 0x400),
    UInt16.ofNat (0xDC00 + (code - 0x10000) % 0x400)]

def hexNumber (digits : Utf16) : ℕ :=
  digits.foldl (fun n u ↦ 16 * n + hexValue (lowerUnit u)) 0

/-- `decodeEscapes`, of a text whose first units are of the last escape. -/
def decodeFrom (skip : ℕ) : Utf16 → Utf16
  | [] => []
  | u :: rest =>
    if skip > 0 then decodeFrom (skip - 1) rest
    else if u = 0x5C then
      let digits := (rest.take 6).takeWhile fun v ↦ isHexUnit (lowerUnit v)
      if digits ≠ [] then
        let code := hexNumber digits
        let char := if 0 < code ∧ code ≤ 0x10FFFF then fromCodePoint code else [0xFFFD]
        let ending := if (rest.drop digits.length).head?.any isCssSpace then 1 else 0
        char ++ decodeFrom (digits.length + ending) rest
      else
        match rest with
        | [] => [u]
        | v :: _ => if v = 0x0A then u :: decodeFrom 0 rest else v :: decodeFrom 1 rest
    else u :: decodeFrom 0 rest

def decodeEscapes (text : Utf16) : Utf16 := decodeFrom 0 text

/-! ### The check -/

def valueNotAllowed (detail : Utf16) : SheetProblem := ⟨.valueNotAllowed, detail⟩

structure ValueContext where
  property : Utf16
  isAssetUrl : Option (Utf16 → Bool)

variable (ctx : ValueContext)

/-- The argument that `checkUrl` judges. -/
def urlArgument (nodes : List ValueNode) : Utf16 :=
  match meaningful nodes with
  | [.string value _] | [.word value] => value
  | _ => trimBy isWhiteUnit (platform.stringify nodes)

def checkUrl (value : Utf16) (nodes : List ValueNode) : List SheetProblem :=
  let arg := urlArgument platform nodes
  if platform.toLowerCase (decodeEscapes value) = ofAscii "url" ∧ ctx.property ∈ URL_PROPERTIES ∧
      0x5C ∉ arg ∧ ctx.isAssetUrl.any (· arg) then []
  else [⟨.urlNotAllowed, ofAscii "url()"⟩]

def checkWord (word : Utf16) (inColourFunction : Bool) : List SheetProblem :=
  let lower := platform.toLowerCase word
  match (matchNumeral lower).filter fun numeral ↦ numeral.rest ∈ UNITS with
  | some numeral =>
    if (numeral.rest ≠ ofAscii "deg" ∨ inColourFunction) ∧
        (numeral.isNegative = false ∨ ctx.property = ofAscii "letter-spacing") then []
    else [valueNotAllowed word]
  | none =>
    if (matchHex lower).isSome ∨ lower ∈ COLOURS ∨ lower ∈ KEYWORDS then []
    else [valueNotAllowed word]

/-- What `checkFunction` says of a function whose arguments it does not read. -/
def checkCall (value : Utf16) (nodes : List ValueNode) : List SheetProblem :=
  let name := platform.toLowerCase (decodeEscapes value)
  if name ∈ URL_LIKE then checkUrl platform ctx value nodes
  else if 0x5C ∈ value then [valueNotAllowed (ofAscii "escape in a function name")]
  else if name = ofAscii "var" then
    match nodes with
    | [.word token] => if token ∈ TOKENS then [] else [valueNotAllowed (ofAscii "var()")]
    | _ => [valueNotAllowed (ofAscii "var()")]
  else [valueNotAllowed (name ++ ofAscii "()")]

/-- Whether `checkFunction` reads the arguments of a function. -/
def isColourFunction (value : Utf16) : Bool :=
  let name := platform.toLowerCase (decodeEscapes value)
  decide (name ∉ URL_LIKE) && decide (0x5C ∉ value) && decide (name ∈ COLOUR_FUNCTIONS)

mutual

def checkNode (depth : ℕ) (inColourFunction : Bool) : ValueNode → List SheetProblem
  | .space => []
  | .comment => []
  | .div value =>
    if value ≠ ofAscii "," ∧ value ≠ ofAscii "/" then [valueNotAllowed value] else []
  | .word value => checkWord platform ctx value inColourFunction
  | .function value unclosed nodes =>
    if unclosed ∨ depth ≥ MAX_FUNCTION_DEPTH then
      [valueNotAllowed (platform.toLowerCase (decodeEscapes value) ++ ofAscii "(")]
    else if isColourFunction platform value then checkNodes (depth + 1) true nodes
    else checkCall platform ctx value nodes
  | .string _ _ => [valueNotAllowed (ofAscii "string")]
  | .unicodeRange _ => [valueNotAllowed (ofAscii "unicode-range")]

def checkNodes (depth : ℕ) (inColourFunction : Bool) : List ValueNode → List SheetProblem
  | [] => []
  | node :: nodes =>
    checkNode depth inColourFunction node ++ checkNodes depth inColourFunction nodes

end

/-! ### Properties with their own grammar -/

/-- The word of a value that is one word. -/
def onlyWord (nodes : List ValueNode) : Option Utf16 :=
  match meaningful nodes with
  | [.word value] => some value
  | _ => none

def oneOf (allowed : List Utf16) (nodes : List ValueNode) : List SheetProblem :=
  if (onlyWord nodes).any fun value ↦ platform.toLowerCase value ∈ allowed then []
  else [valueNotAllowed (platform.stringify nodes)]

/-- The names that the loop of `fontFamily` gathers, the one it is at being last. -/
def fontNames (names : List Utf16) (name : Utf16) :
    List ValueNode → Except SheetProblem (List Utf16)
  | [] => .ok (names ++ [name])
  | node :: nodes =>
    let joined := fun value : Utf16 ↦
      platform.toLowerCase (trimBy isWhiteUnit (name ++ 0x20 :: value))
    match node with
    | .div value =>
      if value = ofAscii "," then fontNames (names ++ [name]) [] nodes
      else .error (valueNotAllowed node.type)
    | .word value => fontNames names (joined value) nodes
    | .string value unclosed =>
      if unclosed then .error (valueNotAllowed node.type)
      else fontNames names (joined value) nodes
    | _ => .error (valueNotAllowed node.type)

def fontFamily (nodes : List ValueNode) : List SheetProblem :=
  match fontNames platform [] [] (meaningful nodes) with
  | .error problem => [problem]
  | .ok names => (names.filter fun name ↦ name ∉ FONT_FAMILY_NAMES).map valueNotAllowed

def content (nodes : List ValueNode) : List SheetProblem :=
  let fine := match meaningful nodes with
    | [.word value] => platform.toLowerCase value == ofAscii "none"
    | [.string value unclosed] => value == [] && !unclosed
    | _ => false
  if fine then [] else [valueNotAllowed (ofAscii "content")]

/-- The number of a word without a sign and without a unit. -/
def plainNumber (word : Utf16) : Option ℚ :=
  ((matchNumeral word).filter fun numeral ↦ numeral.sign = none ∧ numeral.rest = []).map
    (numberOf platform)

def opacity (nodes : List ValueNode) : List SheetProblem :=
  if ((onlyWord nodes).bind (plainNumber platform)).any fun n ↦
      platform.rounding.round (3 / 10) ≤ n ∧ n ≤ 1 then []
  else [valueNotAllowed (ofAscii "opacity")]

def checkValue (property : Utf16) (value : Utf16) (isAssetUrl : Option (Utf16 → Bool)) :
    List SheetProblem :=
  let nodes := platform.valueParser value
  if trimBy isWhiteUnit value = [] then [valueNotAllowed (ofAscii "empty")]
  else if property = ofAscii "display" then oneOf platform DISPLAY nodes
  else if property = ofAscii "position" then oneOf platform POSITION nodes
  else if property = ofAscii "overflow" then oneOf platform OVERFLOW nodes
  else if property = ofAscii "cursor" then oneOf platform CURSOR nodes
  else if property = ofAscii "font-family" then fontFamily platform nodes
  else if property = ofAscii "content" then content platform nodes
  else if property = ofAscii "opacity" then opacity platform nodes
  else checkNodes platform ⟨property, isAssetUrl⟩ 0 false nodes

end Platform

end Odudu.DomainTheme.Stylesheets
