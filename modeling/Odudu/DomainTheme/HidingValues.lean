import Odudu.DomainTheme.AcceptedStylesheets

/-!
# Declarations that hide

What a declaration of a stylesheet means for the element it is laid on: `Hides` is that the
element is not drawn, is too small to read or to press, is pushed off the page, or has text of
no colour.  A declaration of an accepted rule whose parts may not be hidden hides nothing, but
for three ways of writing one that the check overlooks (`overlooked_of_hides`).
-/

set_option autoImplicit false

namespace Odudu.DomainTheme.Stylesheets

open Texts Styles Numbers

/-! ### What a value is -/

/-- The tokens that are lengths, in pixels. -/
def TOKEN_LENGTHS : List (Utf16 × ℚ) :=
  [("--control-height", (40 : ℚ)), ("--label-line", 20), ("--radius-m", 4), ("--radius-s", 3),
    ("--space-1", 4), ("--space-2", 8), ("--space-3", 12), ("--space-4", 16), ("--space-6", 24),
    ("--space-8", 32), ("--target-min", 24), ("--type-12", 12), ("--type-13", 13),
    ("--type-15", 15), ("--type-20", 20)].map fun entry ↦ (ofAscii entry.1, entry.2)

/-- The properties of the space around an element and inside it. -/
def SPACING_PROPERTIES : List Utf16 := sidesOf "margin" ++ sidesOf "padding"

/-- The value is one node, but for white space and comments. -/
def IsOnly (nodes : List ValueNode) (node : ValueNode) : Prop := meaningful nodes = [node]

/-- The value is one of some keywords. -/
def IsKeyword (keywords : List String) (nodes : List ValueNode) : Prop :=
  ∃ word, IsOnly nodes (.word word) ∧ lowerText word ∈ keywords.map ofAscii

section Platform

variable (platform : CssPlatform)

/-- A length that is written out, in pixels, or as a share of what is around. -/
inductive IsLength : ValueNode → ℚ → Bool → Prop where
  | pixels (word : Utf16) (numeral : Numeral) (h : matchNumeral (lowerText word) = some numeral)
      (hunit : numeral.rest ∈ ["", "px", "ch"].map ofAscii) :
      IsLength (.word word) (numberOf platform numeral) false
  | ems (word : Utf16) (numeral : Numeral) (h : matchNumeral (lowerText word) = some numeral)
      (hunit : numeral.rest ∈ ["em", "rem"].map ofAscii) :
      IsLength (.word word) (platform.rounding.round (numberOf platform numeral * 16)) false
  | share (word : Utf16) (numeral : Numeral) (h : matchNumeral (lowerText word) = some numeral)
      (hunit : numeral.rest = percent) :
      IsLength (.word word) (numberOf platform numeral) true

/-- A length that a token stands for. -/
def IsTokenLength (node : ValueNode) (pixels : ℚ) : Prop :=
  ∃ value unclosed token, node = .function value unclosed [.word token] ∧
    lowerText value = ofAscii "var" ∧ TOKEN_LENGTHS.lookup token = some pixels

/-- A length below a floor, with the floor of a share. -/
def TooSmall (floor floorShare : ℚ) (node : ValueNode) : Prop :=
  ∃ n share, IsLength platform node n share ∧ n < if share then floorShare else floor

/-- A length that takes an element off its place: back over what is before it, or far away. -/
def TooFar (node : ValueNode) : Prop :=
  ∃ n share, IsLength platform node n share ∧ (n < 0 ∨ (if share then 50 else 128) < n)

/-- The fourth part of a colour, as a number below a half. -/
def IsFaintAlpha (alpha : Utf16) : Prop :=
  ∃ numeral, matchNumeral alpha = some numeral ∧
    (numeral.rest = [] ∧ numberOf platform numeral < 1 / 2 ∨
      numeral.rest = percent ∧
        platform.rounding.round (platform.rounding.round (numberOf platform numeral / 100) * 1) <
          1 / 2)

/-- A function that makes a colour of four parts, and the fourth. -/
def HasAlpha (node : ValueNode) (alpha : Utf16) : Prop :=
  ∃ value unclosed nodes, node = .function value unclosed nodes ∧
    lowerText value ∈ COLOUR_FUNCTIONS ∧ ∃ a b c, parts nodes = [a, b, c, alpha]

/-- A colour that lets through more than half of what is behind it. -/
inductive IsClearColour : ValueNode → Prop where
  | transparent (word : Utf16) (h : lowerText word = ofAscii "transparent") :
      IsClearColour (.word word)
  | digits (word digits : Utf16) (h : matchHex (lowerText word) = some digits)
      (hfaint : digits.length = 4 ∧ platform.rounding.round
          ((hexNumber (doubled (digits.drop 3)) : ℚ) / 255) < 1 / 2 ∨
        digits.length = 8 ∧
          platform.rounding.round ((hexNumber (digits.drop 6) : ℚ) / 255) < 1 / 2) :
      IsClearColour (.word word)
  | faint (node : ValueNode) (alpha : Utf16) (h : HasAlpha node alpha)
      (hfaint : IsFaintAlpha platform alpha) : IsClearColour node
  | absent (node : ValueNode) (alpha : Utf16) (h : HasAlpha node alpha)
      (habsent : lowerText alpha = ofAscii "none") : IsClearColour node

/-! ### Hiding -/

/-- A declaration of a property hides what it is laid on. -/
inductive Hides : Utf16 → List ValueNode → Prop where
  | display (nodes : List ValueNode) (h : IsKeyword ["none"] nodes) :
      Hides (ofAscii "display") nodes
  | visibility (nodes : List ValueNode) (h : IsKeyword ["hidden", "collapse"] nodes) :
      Hides (ofAscii "visibility") nodes
  | position (nodes : List ValueNode) (h : IsKeyword ["absolute", "fixed", "sticky"] nodes) :
      Hides (ofAscii "position") nodes
  | clip (property : Utf16) (nodes : List ValueNode)
      (hproperty : property ∈ ["clip", "clip-path"].map ofAscii) : Hides property nodes
  | opacity (nodes : List ValueNode) (word : Utf16) (numeral : Numeral)
      (hnodes : IsOnly nodes (.word word)) (hnumeral : matchNumeral word = some numeral)
      (hsmall : numeral.rest = [] ∧ numberOf platform numeral < platform.rounding.round (3 / 10) ∨
        numeral.rest = percent ∧ numberOf platform numeral < 30) :
      Hides (ofAscii "opacity") nodes
  | smallKeyword (nodes : List ValueNode) (h : IsKeyword ["xx-small", "x-small"] nodes) :
      Hides (ofAscii "font-size") nodes
  | smallText (nodes : List ValueNode) (node : ValueNode) (hnodes : IsOnly nodes node)
      (h : TooSmall platform 12 75 node) : Hides (ofAscii "font-size") nodes
  | smallTextToken (nodes : List ValueNode) (node : ValueNode) (pixels : ℚ)
      (hnodes : IsOnly nodes node) (h : IsTokenLength node pixels) (hsmall : pixels < 12) :
      Hides (ofAscii "font-size") nodes
  | smallBox (property : Utf16) (nodes : List ValueNode) (node : ValueNode)
      (hproperty : property ∈ BOX_PROPERTIES) (hnodes : IsOnly nodes node)
      (h : TooSmall platform 16 10 node) : Hides property nodes
  | smallBoxToken (property : Utf16) (nodes : List ValueNode) (node : ValueNode) (pixels : ℚ)
      (hproperty : property ∈ BOX_PROPERTIES) (hnodes : IsOnly nodes node)
      (h : IsTokenLength node pixels) (hsmall : pixels < 16) : Hides property nodes
  | farAway (property : Utf16) (nodes : List ValueNode) (node : ValueNode)
      (hproperty : property ∈ SPACING_PROPERTIES) (hnode : node ∈ nodes)
      (h : TooFar platform node) : Hides property nodes
  | colour (nodes : List ValueNode) (node : ValueNode) (hnodes : IsOnly nodes node)
      (h : IsClearColour platform node) : Hides (ofAscii "color") nodes

/-- The ways of writing a declaration that hides which the check does not see. -/
inductive Overlooked : Utf16 → Utf16 → Prop where
  /-- `display: none` with a comment in the value. -/
  | comment (value : Utf16) (h : IsKeyword ["none"] (platform.valueParser value))
      (hcomment : ¬isNone platform value) : Overlooked (ofAscii "display") value
  /-- A size that a token stands for. -/
  | textToken (value : Utf16) (node : ValueNode) (pixels : ℚ)
      (hnodes : IsOnly (platform.valueParser value) node) (h : IsTokenLength node pixels)
      (hsmall : pixels < 12) : Overlooked (ofAscii "font-size") value
  | boxToken (property value : Utf16) (node : ValueNode) (pixels : ℚ)
      (hproperty : property ∈ BOX_PROPERTIES)
      (hnodes : IsOnly (platform.valueParser value) node) (h : IsTokenLength node pixels)
      (hsmall : pixels < 16) : Overlooked property value
  /-- A colour with `none` for its fourth part. -/
  | alpha (value : Utf16) (node : ValueNode) (alpha : Utf16)
      (hnodes : IsOnly (platform.valueParser value) node) (h : HasAlpha node alpha)
      (habsent : lowerText alpha = ofAscii "none") : Overlooked (ofAscii "color") value

end Platform

/-! ### Letters -/

variable {u : UInt16}

theorem lowerUnit_small (h : (lowerUnit u).toNat < 0x80) : u.toNat < 0x80 := by
  rw [toNat_lowerUnit] at h
  split at h
  · omega
  · exact h

theorem lowerUnit_eq_percent : lowerUnit u = 0x25 ↔ u = 0x25 := by
  constructor
  · intro h
    have hnat : (lowerUnit u).toNat = 0x25 := by rw [h]; rfl
    rw [toNat_lowerUnit] at hnat
    split at hnat
    · rename_i hupper
      have hbounds := isUpperUnit_iff.mp hupper
      omega
    · exact UInt16.toNat.inj hnat
  · rintro rfl
    decide

def AllAscii (text : Utf16) : Prop := ∀ u ∈ text, u.toNat < 0x80

instance : DecidablePred AllAscii := fun text ↦ List.decidableBAll _ text

theorem AllAscii.of_lower {text : Utf16} (h : AllAscii (lowerText text)) : AllAscii text :=
  fun _ hu ↦ lowerUnit_small (h _ (List.mem_map_of_mem hu))

/-- The language lowers a text as a stylesheet does where what comes out is ASCII. -/
theorem toLowerCase_eq {platform : CssPlatform} {text : Utf16} (h : AllAscii (lowerText text)) :
    platform.toLowerCase text = lowerText text := platform.lower_ascii text h.of_lower

theorem toLowerCase_of_eq {platform : CssPlatform} {text word : Utf16} (hword : AllAscii word)
    (h : lowerText text = word) : platform.toLowerCase text = word :=
  (toLowerCase_eq (h ▸ hword)).trans h

/-! ### Numerals -/

def isNumeralUnit (u : UInt16) : Bool :=
  isDigitUnit u || u == 0x2B || u == 0x2D || u == 0x2E

theorem isNumeralUnit_of_digit (h : isDigitUnit u = true) :
    isNumeralUnit u = true := by
  rw [isNumeralUnit, h, Bool.true_or, Bool.true_or, Bool.true_or]

theorem isNumeralUnit_bounds (h : isNumeralUnit u = true) :
    0x25 < u.toNat ∧ u.toNat < 0x41 := by
  simp only [isNumeralUnit, Bool.or_eq_true, beq_iff_eq] at h
  rcases h with ((h | rfl) | rfl) | rfl
  · have hbounds := isDigitUnit_iff.mp h
    omega
  · decide
  · decide
  · decide

theorem takeWhile_drop {p : UInt16 → Bool} (text : Utf16) :
    text = text.takeWhile p ++ text.drop (text.takeWhile p).length := by
  induction text with
  | nil => rfl
  | cons u _ ih =>
    by_cases hu : p u = true
    · rw [List.takeWhile_cons_of_pos hu, List.length_cons, List.drop_succ_cons, List.cons_append,
        ← ih]
    · rw [List.takeWhile_cons_of_neg hu]
      rfl

theorem digits_takeWhile (text : Utf16) :
    ∀ u ∈ text.takeWhile isDigitUnit, isNumeralUnit u = true :=
  fun _ hu ↦ isNumeralUnit_of_digit (List.mem_takeWhile_imp hu)

/-- A sign at the head of a text, and the text after it. -/
theorem exists_sign (text : Utf16) :
    ∃ sign, (∀ u ∈ sign, isNumeralUnit u = true) ∧ text = sign ++
      if (text.head?.filter fun u ↦ u == 0x2B || u == 0x2D).isSome then text.drop 1 else text := by
  cases text with
  | nil => exact ⟨[], by simp, rfl⟩
  | cons u =>
    by_cases hu : (u == 0x2B || u == 0x2D) = true
    · refine ⟨[u], ?_, by simp [Option.filter, hu]⟩
      rw [List.forall_mem_singleton]
      rcases Bool.or_eq_true _ _ ▸ hu with hu | hu <;> rw [beq_iff_eq.mp hu] <;> decide
    · exact ⟨[], by simp, by simp [Option.filter, hu]⟩

/-- A text is of the units of its numeral, and then of the rest. -/
theorem matchNumeral_split {text : Utf16} {numeral : Numeral}
    (h : matchNumeral text = some numeral) :
    ∃ lead, text = lead ++ numeral.rest ∧ lead ≠ [] ∧ ∀ u ∈ lead, isNumeralUnit u = true := by
  obtain ⟨lead, hlead, htext⟩ := exists_sign text
  unfold matchNumeral at h
  extract_lets sign body whole after pointed fraction at h
  have hbody : text = lead ++ (whole ++ after) := by
    rw [← takeWhile_drop body]
    exact htext
  have hwhole : ∀ u ∈ lead ++ whole, isNumeralUnit u = true := by
    intro u hu
    rcases List.mem_append.mp hu with hu | hu
    · exact hlead u hu
    · exact digits_takeWhile body u hu
  have hpointed : pointed = true → after = 0x2E :: (fraction ++ after.drop (1 + fraction.length)) ∧
      ∀ u ∈ fraction, isNumeralUnit u = true := by
    intro hpoint
    have hfraction : fraction = (after.drop 1).takeWhile isDigitUnit := if_pos hpoint
    cases hafter : after with
    | nil =>
      rw [show pointed = (after.head? == some 0x2E) from rfl, hafter] at hpoint
      cases hpoint
    | cons v tail =>
      rw [show pointed = (after.head? == some 0x2E) from rfl, hafter] at hpoint
      obtain rfl : v = 0x2E := by simpa using hpoint
      rw [hafter] at hfraction
      have hsplit := @takeWhile_drop isDigitUnit tail
      simp only [List.drop_succ_cons, List.drop_zero] at hfraction
      rw [← hfraction] at hsplit
      refine ⟨?_, fun u hu ↦ digits_takeWhile tail u (hfraction ▸ hu)⟩
      rw [Nat.add_comm, List.drop_succ_cons, ← hsplit]
  have hfinish : pointed = true → numeral.rest = after.drop (1 + fraction.length) →
      ∃ lead, text = lead ++ numeral.rest ∧ lead ≠ [] ∧ ∀ u ∈ lead, isNumeralUnit u = true := by
    intro hpoint hrest
    obtain ⟨hafter, hdigits⟩ := hpointed hpoint
    refine ⟨lead ++ whole ++ 0x2E :: fraction, ?_, by simp, ?_⟩
    · rw [hbody, hrest, List.append_assoc, List.append_assoc, List.cons_append, ← hafter]
    · intro u hu
      rcases List.mem_append.mp hu with hu | hu
      · exact hwhole u hu
      · rcases List.mem_cons.mp hu with rfl | hu
        · decide
        · exact hdigits u hu
  split at h
  · split at h
    · cases h
    · rename_i hfraction
      have hpoint : pointed = true := by
        by_contra hpoint
        exact hfraction (if_neg hpoint)
      exact hfinish hpoint (by rw [← Option.some.inj h])
  · rename_i hne
    split at h
    · rename_i hpoint
      exact hfinish hpoint (by rw [← Option.some.inj h])
    · refine ⟨lead ++ whole, ?_, ?_, hwhole⟩
      · rw [← Option.some.inj h, List.append_assoc]
        exact hbody
      · exact List.append_ne_nil_of_right_ne_nil _ hne

theorem AllAscii.of_numeral {text : Utf16} {numeral : Numeral}
    (h : matchNumeral text = some numeral) (hrest : AllAscii numeral.rest) : AllAscii text := by
  obtain ⟨lead, rfl, -, hlead⟩ := matchNumeral_split h
  intro u hu
  rcases List.mem_append.mp hu with hu | hu
  · have hbounds := isNumeralUnit_bounds (hlead u hu)
    omega
  · exact hrest u hu

theorem endsIn_percent_iff (text : Utf16) : endsIn percent text = true ↔ text.getLast? = some 0x25 := by
  rw [endsIn, List.isSuffixOf_iff_suffix]
  constructor
  · rintro ⟨start, rfl⟩
    rw [List.getLast?_append]
    rfl
  · intro h
    obtain ⟨start, rfl⟩ := List.getLast?_eq_some_iff.mp h
    exact ⟨start, rfl⟩

theorem endsIn_percent_lower (text : Utf16) :
    endsIn percent (lowerText text) = endsIn percent text := by
  rw [Bool.eq_iff_iff, endsIn_percent_iff, endsIn_percent_iff, lowerText, List.getLast?_map]
  cases text.getLast? with
  | none => simp
  | some => simp [lowerUnit_eq_percent]

/-- A numeral is a share where it has the unit of one. -/
theorem endsIn_percent_numeral {text : Utf16} {numeral : Numeral}
    (h : matchNumeral text = some numeral) :
    endsIn percent text = endsIn percent numeral.rest := by
  obtain ⟨lead, rfl, hne, hlead⟩ := matchNumeral_split h
  rw [Bool.eq_iff_iff, endsIn_percent_iff, endsIn_percent_iff, List.getLast?_append]
  cases hrest : numeral.rest.getLast? with
  | some => simp
  | none =>
    rw [Option.none_or]
    refine iff_of_false (fun hlast ↦ ?_) (by simp)
    have hu := hlead _ (List.mem_of_mem_getLast? hlast)
    cases hu

section Numbers

variable {platform : CssPlatform} {text : Utf16} {numeral : Numeral}

theorem parseFloat_numeral (h : matchNumeral text = some numeral)
    (hrest : numeral.rest = [] ∨ numeral.rest = percent) :
    parseFloat platform text = some (numberOf platform numeral) := by
  obtain ⟨lead, htext, hne, hlead⟩ := matchNumeral_split h
  have hspace : text.dropWhile isWhiteUnit = text := by
    cases lead with
    | nil => exact absurd rfl hne
    | cons u =>
      have hbounds := isNumeralUnit_bounds (hlead u List.mem_cons_self)
      rw [htext, List.cons_append]
      refine List.dropWhile_cons_of_neg ?_
      rw [isWhiteUnit_of_small (by omega) (by omega)]
      exact Bool.false_ne_true
  have hexponent : exponentOf numeral.rest = 0 := by
    rcases hrest with hrest | hrest <;> rw [hrest] <;> rfl
  rw [parseFloat]
  simp only [hspace, h, hexponent, le_refl, ↓reduceIte, Int.toNat_zero, pow_zero, mul_one]
  rfl

theorem channelValue_numeral (h : matchNumeral text = some numeral) :
    (numeral.rest = [] → channelValue platform text 1 =
      some (max 0 (min 1 (numberOf platform numeral)))) ∧
    (numeral.rest = percent → channelValue platform text 1 =
      some (max 0 (min 1 (platform.rounding.round
        (platform.rounding.round (numberOf platform numeral / 100) * 1))))) := by
  have hends := endsIn_percent_numeral h
  constructor
  · intro hrest
    rw [hrest] at hends
    rw [channelValue, parseFloat_numeral h (Or.inl hrest), Option.map_some, hends]
    rfl
  · intro hrest
    rw [hrest] at hends
    rw [channelValue, parseFloat_numeral h (Or.inr hrest), Option.map_some, hends]
    rfl

theorem clamp_lt {x : ℚ} (h : x < 1 / 2) : max 0 (min 1 x) < MIN_ALPHA := by
  rw [MIN_ALPHA]
  exact max_lt (by norm_num) ((min_le_right _ _).trans_lt h)

theorem isFaint_of_faintAlpha (h : IsFaintAlpha platform text) :
    isFaint (alphaOf platform (some text)) = true := by
  obtain ⟨numeral, hnumeral, ⟨hrest, hsmall⟩ | ⟨hrest, hsmall⟩⟩ := h
  · rw [alphaOf, (channelValue_numeral hnumeral).1 hrest]
    exact decide_eq_true (clamp_lt hsmall)
  · rw [alphaOf, (channelValue_numeral hnumeral).2 hrest]
    exact decide_eq_true (clamp_lt hsmall)

end Numbers

/-! ### Lengths -/

section Lengths

variable {platform : CssPlatform} {node : ValueNode} {n : ℚ} {share : Bool}

theorem lengthPx_word {word : Utf16} {numeral : Numeral}
    (h : matchNumeral (lowerText word) = some numeral) (hunit : numeral.rest ∈ LENGTH_UNITS) :
    lengthPx platform (.word word) = some (
      if numeral.rest = ofAscii "em" ∨ numeral.rest = ofAscii "rem" then
        platform.rounding.round (numberOf platform numeral * EM_PX)
      else numberOf platform numeral) ∧
    isPercent (.word word) = endsIn percent numeral.rest := by
  have hunits : ∀ unit ∈ LENGTH_UNITS, AllAscii unit := by decide
  have hlower : platform.toLowerCase word = lowerText word :=
    toLowerCase_eq (AllAscii.of_numeral h (hunits _ hunit))
  constructor
  · rw [lengthPx, hlower, h, Option.filter_some_pos (by simpa using hunit)]
    rfl
  · rw [isPercent, ← endsIn_percent_lower, endsIn_percent_numeral h]

theorem lengthPx_of_isLength (h : IsLength platform node n share) :
    lengthPx platform node = some n ∧ isPercent node = share := by
  cases h with
  | pixels word numeral hnumeral hunit =>
    have hunits : ∀ unit ∈ ["", "px", "ch"].map ofAscii, unit ∈ LENGTH_UNITS ∧
        ¬(unit = ofAscii "em" ∨ unit = ofAscii "rem") ∧ endsIn percent unit = false := by decide
    obtain ⟨hmem, hplain, hshare⟩ := hunits _ hunit
    obtain ⟨hlength, hpercent⟩ := @lengthPx_word platform word numeral hnumeral hmem
    rw [if_neg hplain] at hlength
    exact ⟨hlength, hpercent.trans hshare⟩
  | ems word numeral hnumeral hunit =>
    have hunits : ∀ unit ∈ ["em", "rem"].map ofAscii, unit ∈ LENGTH_UNITS ∧
        (unit = ofAscii "em" ∨ unit = ofAscii "rem") ∧ endsIn percent unit = false := by decide
    obtain ⟨hmem, hem, hshare⟩ := hunits _ hunit
    obtain ⟨hlength, hpercent⟩ := @lengthPx_word platform word numeral hnumeral hmem
    rw [if_pos hem] at hlength
    exact ⟨hlength, hpercent.trans hshare⟩
  | share word numeral hnumeral hunit =>
    obtain ⟨hlength, hpercent⟩ := @lengthPx_word platform word numeral hnumeral
      (by rw [hunit]; decide)
    rw [hunit] at hlength hpercent
    exact ⟨hlength, hpercent⟩

theorem isBelow_of_tooSmall {floor floorShare : ℚ}
    (h : TooSmall platform floor floorShare node) :
    isBelow platform floor floorShare node = true := by
  obtain ⟨n, share, hlength, hsmall⟩ := h
  obtain ⟨hpx, hpercent⟩ := lengthPx_of_isLength hlength
  rw [isBelow, hpx, hpercent]
  exact decide_eq_true hsmall

end Lengths

/-! ### Colours -/

section Colours

variable {platform : CssPlatform} {node : ValueNode}

theorem readColour_of_only {value : Utf16} {colour : Colour}
    (hnodes : IsOnly (platform.valueParser value) node)
    (hcolour : colourOf platform node = some colour) : readColour platform value = some colour := by
  have hmeaningful : (platform.valueParser value).filterMap (colourOf platform) =
      (meaningful (platform.valueParser value)).filterMap (colourOf platform) := by
    rw [meaningful, List.filterMap_filter]
    refine List.filterMap_congr fun other _ ↦ ?_
    cases other <;> rfl
  rw [readColour, hmeaningful, hnodes, List.filterMap_cons, hcolour]
  rfl

theorem colour_function_ascii : ∀ name ∈ COLOUR_FUNCTIONS, AllAscii name ∧
    name ≠ ofAscii "var" ∧ (name = ofAscii "rgb" ∨ name = ofAscii "rgba" ∨
      name = ofAscii "hsl" ∨ name = ofAscii "hsla") := by decide

/-- A colour function of four parts is clear where the fourth is faint. -/
theorem colourOf_function {alpha : Utf16} (h : HasAlpha node alpha)
    (hfaint : isFaint (alphaOf platform (some alpha)) = true) :
    ∃ colour, colourOf platform node = some colour ∧ colour.clear = true := by
  obtain ⟨value, unclosed, nodes, rfl, hname, a, b, c, hparts⟩ := h
  obtain ⟨hascii, hvar, hnames⟩ := colour_function_ascii _ hname
  rw [colourOf, fromFunction, toLowerCase_eq hascii, hparts]
  simp only [List.length_cons, List.length_nil, List.getElem?_cons_succ, List.getElem?_cons_zero]
  rw [if_neg hvar, if_neg (by omega), hfaint]
  split
  · exact ⟨_, rfl, rfl⟩
  · rw [if_pos (by tauto)]
    exact ⟨_, rfl, rfl⟩

theorem hex_small {digits text : Utf16} (h : matchHex text = some digits) :
    text = 0x23 :: digits ∧ AllAscii text := by
  unfold matchHex at h
  split at h
  · split at h
    · rename_i hdigits
      obtain rfl := Option.some.inj h
      rw [Bool.and_eq_true, List.all_eq_true] at hdigits
      refine ⟨rfl, List.forall_mem_cons.mpr ⟨by decide, fun u hu ↦ ?_⟩⟩
      have hhex := hdigits.1 u hu
      simp only [isHexUnit, Bool.or_eq_true, Bool.and_eq_true, decide_eq_true_eq,
        isDigitUnit_iff] at hhex
      omega
    · cases h
  · cases h

theorem lookup_named_hex (digits : Utf16) : NAMED.lookup (0x23 :: digits) = none := by
  rw [List.lookup_eq_none_iff]
  have hheads : ∀ entry ∈ NAMED, entry.1.head? ≠ some 0x23 := by decide
  intro entry hentry
  rw [bne_iff_ne]
  intro heq
  refine hheads entry hentry ?_
  rw [← heq]
  rfl

theorem doubled_four {digits : Utf16} (h : digits.length = 4) :
    (doubled digits).length = 8 ∧ (doubled digits).drop 6 = doubled (digits.drop 3) := by
  match digits, h with
  | [a, b, c, d], _ => exact ⟨rfl, rfl⟩

theorem colourOf_digits {word digits : Utf16} (h : matchHex (lowerText word) = some digits)
    (hfaint : digits.length = 4 ∧ platform.rounding.round
        ((hexNumber (doubled (digits.drop 3)) : ℚ) / 255) < 1 / 2 ∨
      digits.length = 8 ∧
        platform.rounding.round ((hexNumber (digits.drop 6) : ℚ) / 255) < 1 / 2) :
    ∃ colour, colourOf platform (.word word) = some colour ∧ colour.clear = true := by
  obtain ⟨htext, hascii⟩ := hex_small h
  have htransparent : ¬lowerText word = ofAscii "transparent" := by
    rw [htext]
    exact fun heq ↦ absurd (List.cons.inj heq).1 (by decide)
  rw [colourOf, fromWord, toLowerCase_eq hascii]
  dsimp only
  rw [if_neg htransparent, htext, lookup_named_hex, ← htext, h, Option.map_some]
  refine ⟨_, rfl, ?_⟩
  rcases hfaint with ⟨hlength, hfaint⟩ | ⟨hlength, hfaint⟩
  · obtain ⟨hfull, hdrop⟩ := doubled_four hlength
    simp only [hlength, le_refl, ↓reduceIte, hfull, hdrop]
    exact decide_eq_true hfaint
  · have hlong : ¬8 ≤ 4 := by omega
    simp only [hlength, hlong, ↓reduceIte]
    exact decide_eq_true hfaint

/-- A clear colour is seen to be one, but where `none` makes it so. -/
theorem colourOf_clear (h : IsClearColour platform node) :
    (∃ colour, colourOf platform node = some colour ∧ colour.clear = true) ∨
      ∃ alpha, HasAlpha node alpha ∧ lowerText alpha = ofAscii "none" := by
  cases h with
  | transparent _ h =>
    refine Or.inl ⟨⟨none, true⟩, ?_, rfl⟩
    rw [colourOf, fromWord, toLowerCase_of_eq (by decide) h]
    rfl
  | digits _ _ h hfaint => exact Or.inl (colourOf_digits h hfaint)
  | faint _ _ h hfaint => exact Or.inl (colourOf_function h (isFaint_of_faintAlpha hfaint))
  | absent _ alpha h habsent => exact Or.inr ⟨alpha, h, habsent⟩

end Colours

/-! ### What an accepted declaration may hide -/

section Accepted

variable {platform : CssPlatform} {isAssetUrl : Option (Utf16 → Bool)} {scheme : Scheme}
  {decl : Declaration} {mayHide : Bool}

variable (platform isAssetUrl decl mayHide) in
/-- What is known of a declaration with nothing wrong. -/
structure DeclarationFine : Prop where
  property : platform.toLowerCase decl.prop ∈ PROPERTIES
  shown : mayHide = false →
    ¬(platform.toLowerCase decl.prop = ofAscii "display" ∧ isNone platform decl.value)
  legible : mayHide = false →
    legibilityProblem platform (platform.toLowerCase decl.prop) decl.value = none
  value : checkValue platform (platform.toLowerCase decl.prop) decl.value isAssetUrl = []

/-- What a declaration without problems has passed. -/
theorem declaration_fine (h : declarationProblems platform isAssetUrl mayHide scheme decl = []) :
    DeclarationFine platform isAssetUrl decl mayHide := by
  unfold declarationProblems at h
  extract_lets property named at h
  split at h
  · cases h
  · rename_i hproperty
    split at h
    · cases h
    · split at h
      · cases h
      · split at h
        · cases h
        · rename_i hshown
          split at h
          · cases h
          · rename_i hnone
            rw [Option.or_eq_none_iff] at hnone
            refine ⟨?_, fun hhide hdisplay ↦ hshown ⟨hdisplay.1, hdisplay.2, hhide⟩,
              fun hhide ↦ ?_, List.map_eq_nil_iff.mp h⟩
            · by_contra hother
              exact hproperty (Or.inr hother)
            · have hunreadable : (if mayHide = true then none
                  else legibilityProblem platform property decl.value) = none := hnone.2
              rwa [hhide, if_neg Bool.false_ne_true] at hunreadable

variable {nodes : List ValueNode}

theorem onlyWord_of_only {word : Utf16}
    (h : IsOnly nodes (.word word)) : onlyWord nodes = some word := by
  rw [onlyWord, h]

variable {node : ValueNode}

theorem onlyNode_of_only (h : IsOnly nodes node) :
    onlyNode nodes = some node := by
  rw [onlyNode, h]

/-- A keyword that a property's own grammar has not is refused. -/
theorem oneOf_keyword {keywords : List String} {allowed : List Utf16}
    (h : IsKeyword keywords nodes)
    (hkeywords : ∀ word ∈ keywords.map ofAscii, AllAscii word ∧ word ∉ allowed) :
    oneOf platform allowed nodes ≠ [] := by
  obtain ⟨word, honly, hword⟩ := h
  obtain ⟨hascii, hnot⟩ := hkeywords _ hword
  rw [oneOf, onlyWord_of_only honly, Option.any_some, toLowerCase_eq hascii]
  rw [if_neg (by simpa using hnot)]
  exact List.cons_ne_nil _ _

theorem legible_fontSize {value : Utf16}
    (hnodes : IsOnly (platform.valueParser value) node)
    (h : fontSizeProblem platform node = true) :
    legibilityProblem platform (ofAscii "font-size") value ≠ none := by
  unfold legibilityProblem
  dsimp only
  rw [onlyNode_of_only hnodes, Option.any_some, if_pos ⟨rfl, h⟩]
  exact Option.some_ne_none _

variable {property value : Utf16}

theorem legible_box
    (hproperty : property ∈ BOX_PROPERTIES)
    (hnodes : IsOnly (platform.valueParser value) node)
    (h : isBelow platform MIN_BOX_PX MIN_BOX_PERCENT node = true) :
    legibilityProblem platform property value ≠ none := by
  unfold legibilityProblem
  dsimp only
  split
  · exact Option.some_ne_none _
  · rw [onlyNode_of_only hnodes, Option.any_some, if_pos ⟨hproperty, h⟩]
    exact Option.some_ne_none _

theorem legible_spacing
    (hproperty : isSpacing property = true) (hnode : node ∈ platform.valueParser value)
    (hmeaningful : node.isMeaningful = true)
    (h : isAbove platform MAX_SPACE_PX MAX_SPACE_PERCENT node = true) :
    legibilityProblem platform property value ≠ none := by
  unfold legibilityProblem
  dsimp only
  split
  · exact Option.some_ne_none _
  · split
    · exact Option.some_ne_none _
    · rw [if_pos ⟨hproperty, List.any_eq_true.mpr ⟨node, List.mem_filter.mpr ⟨hnode, hmeaningful⟩,
        h⟩⟩]
      exact Option.some_ne_none _

theorem legible_colour {value : Utf16} (h : isClear platform value = true) :
    legibilityProblem platform (ofAscii "color") value ≠ none := by
  unfold legibilityProblem
  dsimp only
  rw [if_neg (by simp [ofAscii]), if_neg (fun hbox ↦ absurd hbox.1 (by decide)),
    if_neg (fun hspace ↦ absurd hspace.1 (by decide)), if_neg (fun hletter ↦ absurd hletter.1
      (by decide)), if_neg (fun hline ↦ absurd hline.1 (by decide)), if_pos ⟨rfl, h⟩]
  exact Option.some_ne_none _

/-! ### Space -/

variable {ctx : ValueContext}

theorem checkNode_of_mem {depth : ℕ} {inColour : Bool}
    (h : checkNodes platform ctx depth inColour nodes = []) :
    ∀ node ∈ nodes, checkNode platform ctx depth inColour node = [] := by
  induction nodes with
  | nil => exact fun node hnode ↦ absurd hnode List.not_mem_nil
  | cons _ _ ih =>
    rw [checkNodes, List.append_eq_nil_iff] at h
    exact List.forall_mem_cons.mpr ⟨h.1, ih h.2⟩

/-- The properties whose values have a grammar of their own. -/
def SPECIAL : List Utf16 :=
  ["display", "position", "overflow", "cursor", "font-family", "content", "opacity"].map ofAscii

theorem checkNodes_of_value (hproperty : property ∉ SPECIAL)
    (h : checkValue platform property value isAssetUrl = []) :
    checkNodes platform ⟨property, isAssetUrl⟩ 0 false (platform.valueParser value) = [] := by
  simp only [SPECIAL, List.map_cons, List.map_nil, List.mem_cons, List.not_mem_nil, or_false,
    not_or] at hproperty
  obtain ⟨hdisplay, hposition, hoverflow, hcursor, hfont, hcontent, hopacity⟩ := hproperty
  unfold checkValue at h
  extract_lets nodes at h
  rw [if_neg hdisplay, if_neg hposition, if_neg hoverflow, if_neg hcursor, if_neg hfont,
    if_neg hcontent, if_neg hopacity] at h
  split at h
  · cases h
  · exact h

theorem magnitude_nonneg (numeral : Numeral) : 0 ≤ numeral.magnitude :=
  div_nonneg (Nat.cast_nonneg _) (pow_nonneg (by norm_num) _)

theorem round_nonneg (R : Rounding) {x : ℚ} (h : 0 ≤ x) : 0 ≤ R.round x := by
  have hzero := @Rounding.le_round R x 0 (by norm_num) (by simpa using h)
  simpa using hzero

variable {numeral : Numeral}

theorem numberOf_nonneg (h : numeral.isNegative = false) :
    0 ≤ numberOf platform numeral := by
  rw [numberOf, Numeral.value, h]
  exact round_nonneg _ (magnitude_nonneg numeral)

variable {share : Bool} {n : ℚ}

/-- A length that is accepted is not negative where letters are not spaced. -/
theorem length_nonneg {depth : ℕ} {inColour : Bool}
    (hctx : ctx.property ≠ ofAscii "letter-spacing")
    (hfine : checkNode platform ctx depth inColour node = [])
    (h : IsLength platform node n share) : 0 ≤ n := by
  have hsign : ∀ {word : Utf16} {numeral : Numeral}, node = .word word →
      matchNumeral (lowerText word) = some numeral → numeral.rest ∈ LENGTH_UNITS →
        numeral.isNegative = false := by
    rintro word numeral rfl hnumeral hunit
    have hunits : ∀ unit ∈ LENGTH_UNITS, AllAscii unit ∧ unit ∈ UNITS := by decide
    obtain ⟨hascii, hmem⟩ := hunits _ hunit
    rw [checkNode, checkWord, toLowerCase_eq (AllAscii.of_numeral hnumeral hascii)] at hfine
    rw [hnumeral, Option.filter_some_pos (by simpa using hmem)] at hfine
    dsimp only at hfine
    split at hfine
    · rename_i hok
      exact hok.2.resolve_right hctx
    · cases hfine
  cases h with
  | pixels _ _ hnumeral hunit =>
    have hunits : ∀ unit ∈ ["", "px", "ch"].map ofAscii, unit ∈ LENGTH_UNITS := by decide
    exact numberOf_nonneg (hsign rfl hnumeral (hunits _ hunit))
  | ems _ _ hnumeral hunit =>
    have hunits : ∀ unit ∈ ["em", "rem"].map ofAscii, unit ∈ LENGTH_UNITS := by decide
    refine round_nonneg _ (mul_nonneg ?_ (by norm_num))
    exact numberOf_nonneg (hsign rfl hnumeral (hunits _ hunit))
  | share _ _ hnumeral hunit =>
    exact numberOf_nonneg (hsign rfl hnumeral (by rw [hunit]; decide))

theorem isAbove_of_length
    (h : IsLength platform node n share) (hfar : (if share then 50 else 128) < n) :
    isAbove platform MAX_SPACE_PX MAX_SPACE_PERCENT node = true := by
  obtain ⟨hpx, hpercent⟩ := lengthPx_of_isLength h
  rw [isAbove, hpx, hpercent]
  exact decide_eq_true hfar

theorem isMeaningful_of_length
    (h : IsLength platform node n share) : node.isMeaningful = true := by
  cases h <;> rfl

/-- Space is not laid out that takes an element off its place. -/
theorem not_tooFar (h : DeclarationFine platform isAssetUrl decl false)
    (hproperty : platform.toLowerCase decl.prop ∈ SPACING_PROPERTIES)
    (hnode : node ∈ platform.valueParser decl.value) : ¬TooFar platform node := by
  rintro ⟨n, share, hlength, hfar⟩
  have hspacing : ∀ property ∈ SPACING_PROPERTIES, isSpacing property = true ∧
      property ∉ SPECIAL ∧ property ≠ ofAscii "letter-spacing" := by decide
  obtain ⟨hspaced, hspecial, hletters⟩ := hspacing _ hproperty
  rcases hfar with hnegative | hfar
  · have hnodes := checkNodes_of_value hspecial h.value
    have hpositive := length_nonneg hletters (checkNode_of_mem hnodes node hnode) hlength
    linarith
  · exact legible_spacing hspaced hnode (isMeaningful_of_length hlength)
      (isAbove_of_length hlength hfar) (h.legible rfl)

/-! ### The ways that are overlooked -/

theorem checkValue_position {value : Utf16}
    (h : checkValue platform (ofAscii "position") value isAssetUrl = []) :
    oneOf platform POSITION (platform.valueParser value) = [] := by
  unfold checkValue at h
  extract_lets nodes at h
  rw [if_neg (by decide : ofAscii "position" ≠ ofAscii "display"), if_pos rfl] at h
  split at h
  · cases h
  · exact h

theorem checkValue_opacity {value : Utf16}
    (h : checkValue platform (ofAscii "opacity") value isAssetUrl = []) :
    opacity platform (platform.valueParser value) = [] := by
  unfold checkValue at h
  extract_lets nodes at h
  rw [if_neg (by decide : ofAscii "opacity" ≠ ofAscii "display"),
    if_neg (by decide : ofAscii "opacity" ≠ ofAscii "position"),
    if_neg (by decide : ofAscii "opacity" ≠ ofAscii "overflow"),
    if_neg (by decide : ofAscii "opacity" ≠ ofAscii "cursor"),
    if_neg (by decide : ofAscii "opacity" ≠ ofAscii "font-family"),
    if_neg (by decide : ofAscii "opacity" ≠ ofAscii "content"), if_pos rfl] at h
  split at h
  · cases h
  · exact h

/-- An opacity below the floor, or one that is a share, is refused. -/
theorem opacity_refused {word : Utf16}
    (hnodes : IsOnly nodes (.word word)) (hnumeral : matchNumeral word = some numeral)
    (hsmall : numeral.rest = [] ∧ numberOf platform numeral < platform.rounding.round (3 / 10) ∨
      numeral.rest = percent ∧ numberOf platform numeral < 30) : opacity platform nodes ≠ [] := by
  intro h
  rw [opacity, onlyWord_of_only hnodes, Option.bind_some, plainNumber, hnumeral] at h
  split at h
  · rename_i hany
    simp only [Option.any_map, Option.any_filter, Option.any_some, Bool.and_eq_true,
      decide_eq_true_eq] at hany
    obtain ⟨⟨-, hrest⟩, hfloor, -⟩ := hany
    rcases hsmall with ⟨-, hsmall⟩ | ⟨hshare, -⟩
    · exact absurd hfloor (not_le.mpr hsmall)
    · rw [hrest] at hshare
      cases hshare
  · cases h

/-- What a fine declaration hides where nothing may be hidden is overlooked. -/
theorem overlooked_of_hides (h : DeclarationFine platform isAssetUrl decl false)
    (hhides : Hides platform (lowerText decl.prop) (platform.valueParser decl.value)) :
    Overlooked platform (lowerText decl.prop) decl.value := by
  generalize hprop : lowerText decl.prop = property at hhides ⊢
  have hname : AllAscii property → platform.toLowerCase decl.prop = property :=
    fun hascii ↦ toLowerCase_of_eq hascii hprop
  obtain ⟨hallowed, hshown, hlegible, hvalue⟩ := h
  have hboxes : ∀ name ∈ BOX_PROPERTIES, AllAscii name := by decide
  cases hhides with
  | display _ hkeyword =>
    exact Overlooked.comment _ hkeyword fun hnone ↦ hshown rfl ⟨hname (by decide), hnone⟩
  | visibility =>
    rw [hname (by decide)] at hallowed
    exact absurd hallowed (by decide +kernel)
  | position _ hkeyword =>
    rw [hname (by decide)] at hvalue
    exact absurd (checkValue_position hvalue) (oneOf_keyword hkeyword (by decide))
  | clip _ _ hproperty =>
    have hclips : ∀ name ∈ ["clip", "clip-path"].map ofAscii,
        AllAscii name ∧ name ∉ PROPERTIES := by decide +kernel
    obtain ⟨hascii, hnot⟩ := hclips _ hproperty
    rw [hname hascii] at hallowed
    exact absurd hallowed hnot
  | opacity _ _ _ hnodes hnumeral hsmall =>
    rw [hname (by decide)] at hvalue
    exact absurd (checkValue_opacity hvalue) (opacity_refused hnodes hnumeral hsmall)
  | smallKeyword _ hkeyword =>
    obtain ⟨word, honly, hword⟩ := hkeyword
    have hwords : ∀ name ∈ ["xx-small", "x-small"].map ofAscii,
        AllAscii name ∧ name ∈ SMALL_KEYWORDS := by decide
    obtain ⟨hascii, hsmall⟩ := hwords _ hword
    rw [hname (by decide)] at hlegible
    refine absurd (hlegible rfl) (legible_fontSize honly ?_)
    rw [fontSizeProblem, isSmallKeyword, toLowerCase_eq hascii, decide_eq_true hsmall,
      Bool.true_or]
  | smallText _ _ hnodes hsmall =>
    rw [hname (by decide)] at hlegible
    refine absurd (hlegible rfl) (legible_fontSize hnodes ?_)
    rw [fontSizeProblem, MIN_FONT_PX, MIN_FONT_PERCENT, isBelow_of_tooSmall hsmall, Bool.or_true]
  | smallTextToken _ node pixels hnodes htoken hsmall =>
    exact Overlooked.textToken _ node pixels hnodes htoken hsmall
  | smallBox _ _ _ hproperty hnodes hsmall =>
    rw [hname (hboxes _ hproperty)] at hlegible
    exact absurd (hlegible rfl) (legible_box hproperty hnodes (isBelow_of_tooSmall hsmall))
  | smallBoxToken _ _ node pixels hproperty hnodes htoken hsmall =>
    exact Overlooked.boxToken _ _ node pixels hproperty hnodes htoken hsmall
  | farAway _ _ _ hproperty hnode hfar =>
    have hspaces : ∀ name ∈ SPACING_PROPERTIES, AllAscii name := by decide
    have heq := hname (hspaces _ hproperty)
    exact absurd hfar (not_tooFar ⟨hallowed, hshown, hlegible, hvalue⟩ (heq ▸ hproperty) hnode)
  | colour _ node hnodes hclear =>
    rcases colourOf_clear hclear with ⟨colour, hcolour, hisClear⟩ | ⟨alpha, halpha, habsent⟩
    · rw [hname (by decide)] at hlegible
      refine absurd (hlegible rfl) (legible_colour ?_)
      rw [isClear, readColour_of_only hnodes hcolour, Option.any_some, hisClear]
    · exact Overlooked.alpha _ node alpha hnodes halpha habsent

/-- What is overlooked hides. -/
theorem hides_of_overlooked (h : Overlooked platform property value) :
    Hides platform property (platform.valueParser value) := by
  cases h with
  | comment _ hkeyword => exact Hides.display _ hkeyword
  | textToken _ node pixels hnodes htoken hsmall =>
    exact Hides.smallTextToken _ node pixels hnodes htoken hsmall
  | boxToken _ _ node pixels hproperty hnodes htoken hsmall =>
    exact Hides.smallBoxToken _ _ node pixels hproperty hnodes htoken hsmall
  | alpha _ node alpha hnodes halpha habsent =>
    exact Hides.colour _ node hnodes (IsClearColour.absent node alpha halpha habsent)

end Accepted

end Odudu.DomainTheme.Stylesheets
