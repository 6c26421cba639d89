import Odudu.Texts.Json

/-!
# What a tool returns

`mcp/src/service/sanitize.ts`.  A text loses the characters that show nothing or reorder what
is read, and is cut at its cap; an object loses the members whose names are secret ones.

Of the lower case of a name what decides is whether it is one of a list of Latin names.  The
letters that have a Latin letter for their lower case are the capital Latin letters and the
Kelvin sign, and `toLowerCase` leaves every other as it is.

A removed character may have stood between two surrogates that are a character of the tag block
once they meet, and what is removed first is not looked for again: a text is cleaned, for good,
when none is hidden so in the part that is shown (`cleaned_iff`).

A name is judged before it is cleaned.  `cleanData_clean_iff` says of every value when what is
returned of it holds nothing hidden and no secret member.
-/

set_option autoImplicit false

namespace Odudu.Mcp

open Texts

def TEXT_CAP : ℕ := 1000

def LONG_TEXT_CAP : ℕ := 128 * 1024

def MAX_DEPTH : ℕ := 32

/-- The ellipsis. -/
def TRUNCATED : Utf16 := [0x2026]

/-! ### Texts -/

/-- `CONTROL`: the category Cc, but for the line feed and the tab. -/
def isControl (n : ℕ) : Bool :=
  (decide (n ≤ 0x1F) && n != 0x0A && n != 0x09) || (decide (0x7F ≤ n) && decide (n ≤ 0x9F))

/-- `INVISIBLE` -/
def isInvisible (n : ℕ) : Bool :=
  n == 0x00AD || n == 0x200B || n == 0x2060 || n == 0xFEFF ||
    (decide (0xE0000 ≤ n) && decide (n ≤ 0xE007F))

/-- The controls of `contracts/src/bidi.ts`. -/
def isBidiControl (n : ℕ) : Bool :=
  (decide (0x202A ≤ n) && decide (n ≤ 0x202E)) || (decide (0x2066 ≤ n) && decide (n ≤ 0x2069))

def stripBidiControls (text : Utf16) : Utf16 := remove isBidiControl text

/-- `.replace(HIGH_SURROGATE, '')` -/
def dropHighSurrogate (text : Utf16) : Utf16 :=
  if text.getLast?.any (fun u ↦ decide (isHigh u)) then text.dropLast else text

/-- Whether any text was cut. -/
structure CleanStats where
  truncated : Bool

/-- The text without what it is not to hold. -/
def plain (text : Utf16) : Utf16 :=
  stripBidiControls (remove isInvisible (remove isControl text))

def clean (text : Utf16) (cap : ℕ) (stats : CleanStats) : Utf16 × CleanStats :=
  if (plain text).length ≤ cap then (plain text, stats)
  else
    (dropHighSurrogate ((plain text).take (cap - TRUNCATED.length)) ++ TRUNCATED, ⟨true⟩)

def cleanText (text : Utf16) (cap : ℕ) : Utf16 := (clean text cap ⟨false⟩).1

/-! ### Names -/

def SECRET_MEMBERS : List Utf16 :=
  ["client_secret", "password", "password_hash", "secret_hash", "private_jwk_encrypted"].map ofAscii

def PRIVATE_KEY_MEMBERS : List Utf16 :=
  ["d", "p", "q", "dp", "dq", "qi", "k", "oth"].map ofAscii

def lowerUnit (u : UInt16) : UInt16 :=
  if 0x41 ≤ u ∧ u ≤ 0x5A then u + 0x20 else if u = 0x212A then 0x6B else u

def toLowerCase (text : Utf16) : Utf16 := text.map lowerUnit

def withheld (key : Utf16) (isKey : Bool) : Bool :=
  let name := toLowerCase key
  SECRET_MEMBERS.contains name || (isKey && PRIVATE_KEY_MEMBERS.contains name)

/-- `'kty' in value` -/
def hasKty {α : Type} (members : List (Utf16 × α)) : Bool :=
  members.any fun member ↦ member.1 == ofAscii "kty"

/-! ### Values -/

structure ToolProblem where
  problemType : String
  title : String
  status : Option ℕ

def tooDeep : ToolProblem where
  problemType := "mcp:unexpected_response"
  title := "The admin API answered a document nested too deep to read"
  status := none

/-- Member names from the root, array indices left out. -/
abbrev Path : Type := List Utf16

/-- `*` stands for one name. -/
def listed (longText : List Utf16) (path : Path) : Bool :=
  longText.any fun entry ↦
    let parts := entry.splitOn 0x2E
    parts.length == path.length &&
      (parts.zip path).all fun part ↦ part.1 == ofAscii "*" || part.1 == part.2

def capOf (inLong : Bool) : ℕ := if inLong then LONG_TEXT_CAP else TEXT_CAP

mutual

def walk (longText : List Utf16) (inLong : Bool) (path : Path) :
    Json → CleanStats → ℕ → Except ToolProblem (Json × CleanStats)
  | .string text, stats, _ =>
    let (text, stats) := clean text (capOf inLong) stats
    .ok (.string text, stats)
  | .array items, stats, depth =>
    if MAX_DEPTH ≤ depth then .error tooDeep
    else do
      let (items, stats) ← walkItems longText inLong path items stats (depth + 1)
      return (.array items, stats)
  | .object members, stats, depth =>
    if MAX_DEPTH ≤ depth then .error tooDeep
    else do
      let (entries, stats) ←
        walkMembers longText inLong path (hasKty members) members stats (depth + 1)
      return (.object (fromEntries entries), stats)
  | .null, stats, _ => .ok (.null, stats)
  | .bool b, stats, _ => .ok (.bool b, stats)
  | .number n, stats, _ => .ok (.number n, stats)

def walkItems (longText : List Utf16) (inLong : Bool) (path : Path) :
    List Json → CleanStats → ℕ → Except ToolProblem (List Json × CleanStats)
  | [], stats, _ => .ok ([], stats)
  | item :: rest, stats, depth => do
    let (item, stats) ← walk longText inLong path item stats depth
    let (rest, stats) ← walkItems longText inLong path rest stats depth
    return (item :: rest, stats)

/-- The members that are not withheld. -/
def walkMembers (longText : List Utf16) (inLong : Bool) (path : Path) (isKey : Bool) :
    List (Utf16 × Json) → CleanStats → ℕ →
      Except ToolProblem (List (Utf16 × Json) × CleanStats)
  | [], stats, _ => .ok ([], stats)
  | (key, item) :: rest, stats, depth =>
    if withheld key isKey then walkMembers longText inLong path isKey rest stats depth
    else do
      let (name, stats) := clean key TEXT_CAP stats
      let (item, stats) ← walk longText (inLong || listed longText (path ++ [key]))
        (path ++ [key]) item stats depth
      let (rest, stats) ← walkMembers longText inLong path isKey rest stats depth
      return ((name, item) :: rest, stats)

end

def cleanData (value : Json) (stats : CleanStats) (longText : List Utf16) :
    Except ToolProblem (Json × CleanStats) :=
  walk longText false [] value stats 0

/-! ### Classes -/

theorem basic_control : Basic isControl := by
  intro n h
  simp only [isControl, Bool.or_eq_true, Bool.and_eq_true, decide_eq_true_eq] at h
  omega

theorem basic_bidi : Basic isBidiControl := by
  intro n h
  simp only [isBidiControl, Bool.or_eq_true, Bool.and_eq_true, decide_eq_true_eq] at h
  omega

/-- The high surrogate of the tag block. -/
def tagHigh : UInt16 := 0xDB40

/-- A low surrogate of the tag block. -/
def isTag (low : UInt16) : Prop := 0xDC00 ≤ low.toNat ∧ low.toNat ≤ 0xDC7F

theorem isHigh_tagHigh : isHigh tagHigh := by decide

variable {low : UInt16}

theorem isTag.isLow (h : isTag low) : isLow low := by
  unfold isTag at h
  unfold Texts.isLow
  omega

theorem isInvisible_iff {n : ℕ} : isInvisible n = true ↔ n = 0x00AD ∨ n = 0x200B ∨ n = 0x2060 ∨
    n = 0xFEFF ∨ 0xE0000 ≤ n ∧ n ≤ 0xE007F := by
  simp [isInvisible, or_assoc]

/-- Of the pairs those of the tag block are invisible. -/
theorem isInvisible_pair {high low : UInt16} (hhigh : isHigh high) (hlow : isLow low) :
    isInvisible (CodePoint.pair high low).value = true ↔ high = tagHigh ∧ isTag low := by
  have hvalue : (CodePoint.pair high low).value =
      0x10000 + (high.toNat - 0xD800) * 0x400 + (low.toNat - 0xDC00) := rfl
  have htag : high = tagHigh ↔ high.toNat = 0xDB40 := by
    rw [← UInt16.toNat_inj]
    rfl
  rw [isInvisible_iff, hvalue, htag]
  unfold isHigh at hhigh
  unfold isLow at hlow
  unfold isTag
  omega

variable {u : UInt16}

theorem isInvisible_surrogate (h : isHigh u ∨ isLow u) :
    isInvisible u.toNat = false := by
  by_contra htrue
  have hclass := isInvisible_iff.mp (by simpa using htrue)
  unfold isHigh isLow at h
  omega

/-- A text is free of what is invisible when its units are, and no two of them are of the tag
block together. -/
theorem free_invisible_iff {text : Utf16} : Free isInvisible text ↔
    (∀ u ∈ text, isInvisible u.toNat = false) ∧
      ∀ low before, isTag low → ¬Neighbours tagHigh low before text := by
  constructor
  · intro h
    refine ⟨fun u hu ↦ ?_, fun low before hlow hneighbours ↦ ?_⟩
    · rcases point_of_mem hu with hpoint | hsurrogate
      · exact h _ hpoint
      · exact isInvisible_surrogate hsurrogate
    · have hmem := hneighbours.pair_mem isHigh_tagHigh hlow.isLow
      have hvisible := h _ hmem
      rw [(isInvisible_pair isHigh_tagHigh hlow.isLow).mpr ⟨rfl, hlow⟩] at hvisible
      simp at hvisible
  · rintro ⟨hunits, hneighbours⟩ point hpoint
    cases point with
    | unit u => exact hunits u (unit_mem_of_mem hpoint)
    | pair high low =>
      obtain ⟨hhigh, hlow⟩ := paired_codePoints text high low hpoint
      by_contra htrue
      obtain ⟨rfl, htag⟩ := (isInvisible_pair hhigh hlow).mp (by simpa using htrue)
      obtain ⟨before, hbefore⟩ := (pair_mem_codePoints hhigh hlow).mp hpoint
      exact hneighbours low before htag hbefore

/-! ### What is left of a text -/

/-- The code point is of no class that is removed after the controls. -/
def kept (point : CodePoint) : Bool :=
  !isBidiControl point.value && !isInvisible point.value

variable {text : Utf16} {cap : ℕ}

theorem plain_eq (text : Utf16) :
    plain text = ofCodePoints ((codePoints (remove isControl text)).filter kept) := by
  rw [plain, stripBidiControls, basic_bidi.remove_eq, remove]
  rw [basic_bidi.filter_units ((paired_codePoints _).filter _), List.filter_filter]
  rfl

/-- No unit that is left is of a class that is removed. -/
theorem plain_units (h : u ∈ plain text) :
    isControl u.toNat = false ∧ isInvisible u.toNat = false ∧ isBidiControl u.toNat = false := by
  have hplain := h
  rw [plain_eq] at hplain
  obtain ⟨point, hpoint, hu⟩ := List.mem_flatMap.mp hplain
  obtain ⟨hmem, hkept⟩ := List.mem_filter.mp hpoint
  refine ⟨?_, ?_, ?_⟩
  · have hcontrol : u ∈ remove isControl text := by
      rw [← ofCodePoints_codePoints (remove isControl text)]
      exact List.mem_flatMap.mpr ⟨point, hmem, hu⟩
    rw [basic_control.remove_eq] at hcontrol
    simpa using (List.mem_filter.mp hcontrol).2
  · cases point with
    | unit =>
      obtain rfl := List.mem_singleton.mp hu
      have hboth : isBidiControl u.toNat = false ∧ isInvisible u.toNat = false := by
        simpa [kept] using hkept
      exact hboth.2
    | pair high low =>
      obtain ⟨hhigh, hlow⟩ := paired_codePoints _ high low hmem
      apply isInvisible_surrogate
      simp only [CodePoint.units_pair, List.mem_cons, List.not_mem_nil, or_false] at hu
      rcases hu with rfl | rfl
      · exact Or.inl hhigh
      · exact Or.inr hlow
  · rw [plain, stripBidiControls, basic_bidi.remove_eq] at h
    simpa using (List.mem_filter.mp h).2

/-- Two surrogates of the tag block, with nothing between them but what is removed, and so many
units of what is left before them. -/
def Hides (text : Utf16) (low : UInt16) (before : ℕ) : Prop :=
  ∃ points removed rest,
    codePoints (remove isControl text) =
      points ++ .unit tagHigh :: (removed ++ .unit low :: rest) ∧
    (∀ point ∈ removed, kept point = false) ∧
    (ofCodePoints (points.filter kept)).length = before

theorem kept_surrogate (h : isHigh u ∨ isLow u) : kept (.unit u) = true := by
  simp [kept, isInvisible_surrogate h, basic_bidi.not_surrogate h]

/-- They meet when what is between them is removed, and in no other way. -/
theorem neighbours_plain_iff (hlow : isTag low) (before : ℕ) :
    Neighbours tagHigh low before (plain text) ↔ Hides text low before := by
  have hhigh := isHigh_tagHigh
  rw [plain_eq]
  constructor
  · intro h
    have hpair : CodePoint.pair tagHigh low ∉
        (codePoints (remove isControl text)).filter kept := by
      intro hmem
      have hkept := (List.mem_filter.mp hmem).2
      simp [kept, (isInvisible_pair hhigh hlow.isLow).mpr ⟨rfl, hlow⟩] at hkept
    obtain ⟨points, points', heq, hlength⟩ :=
      h.apart ((paired_codePoints _).filter _) hhigh hlow.isLow hpair
    obtain ⟨first, second, hsplit, rfl, hsecond⟩ := List.filter_eq_append_iff.mp heq
    obtain ⟨between, third, rfl, hbetween, -, hthird⟩ := List.filter_eq_cons_iff.mp hsecond
    obtain ⟨removed, rest, rfl, hremoved, -, -⟩ := List.filter_eq_cons_iff.mp hthird
    refine ⟨first ++ between, removed, rest, ?_, fun point hpoint ↦ ?_, ?_⟩
    · simpa using hsplit
    · simpa using hremoved point hpoint
    · have hnone : between.filter kept = [] :=
        List.filter_eq_nil_iff.mpr fun point hpoint ↦ by simpa using hbetween point hpoint
      rw [List.filter_append, hnone, List.append_nil, hlength]
  · rintro ⟨points, removed, rest, hpoints, hremoved, rfl⟩
    have hnone : removed.filter kept = [] :=
      List.filter_eq_nil_iff.mpr fun point hpoint ↦ by simp [hremoved point hpoint]
    have hkept : (codePoints (remove isControl text)).filter kept =
        points.filter kept ++ .unit tagHigh :: .unit low :: rest.filter kept := by
      rw [hpoints, List.filter_append, List.filter_cons_of_pos (kept_surrogate (Or.inl hhigh)),
        List.filter_append, hnone, List.nil_append,
        List.filter_cons_of_pos (kept_surrogate (Or.inr hlow.isLow))]
    rw [hkept, ofCodePoints_append]
    exact neighbours_append _ _

/-! ### What is shown of a text -/

theorem cleanText_short (h : (plain text).length ≤ cap) : cleanText text cap = plain text := by
  simp [cleanText, clean, h]

theorem cleanText_cut (h : cap < (plain text).length) :
    cleanText text cap = dropHighSurrogate ((plain text).take (cap - 1)) ++ TRUNCATED := by
  have hnot : ¬(plain text).length ≤ cap := by omega
  simp only [cleanText, clean, hnot, if_false]
  rfl

theorem dropHighSurrogate_sublist (text : Utf16) : (dropHighSurrogate text).Sublist text := by
  unfold dropHighSurrogate
  split_ifs
  · exact List.dropLast_sublist text
  · exact .refl text

theorem length_cleanText_le (hcap : 0 < cap) : (cleanText text cap).length ≤ cap := by
  by_cases h : (plain text).length ≤ cap
  · rw [cleanText_short h]
    exact h
  · rw [cleanText_cut (by omega), List.length_append]
    have hdrop := (dropHighSurrogate_sublist ((plain text).take (cap - 1))).length_le
    have htake := List.length_take_le (cap - 1) (plain text)
    have hone : TRUNCATED.length = 1 := rfl
    omega

theorem cleanText_units (h : u ∈ cleanText text cap) :
    u ∈ plain text ∨ u = 0x2026 := by
  by_cases hlength : (plain text).length ≤ cap
  · rw [cleanText_short hlength] at h
    exact Or.inl h
  · rw [cleanText_cut (by omega)] at h
    rcases List.mem_append.mp h with hkept | hellipsis
    · exact Or.inl (List.mem_of_mem_take ((dropHighSurrogate_sublist _).subset hkept))
    · exact Or.inr (List.mem_singleton.mp hellipsis)

/-- A high surrogate at the end is half of nothing. -/
theorem neighbours_dropHighSurrogate {high low : UInt16} (hlow : isLow low) (before : ℕ) :
    Neighbours high low before (dropHighSurrogate text) ↔ Neighbours high low before text := by
  unfold dropHighSurrogate
  split_ifs with hlast
  · cases hu : text.getLast? with
    | none => simp [hu] at hlast
    | some u =>
      have hhigh : isHigh u := by simpa [hu] using hlast
      obtain ⟨init, rfl⟩ := List.getLast?_eq_some_iff.mp hu
      rw [List.dropLast_concat]
      refine (neighbours_concat fun heq ↦ ?_).symm
      exact not_isLow_of_isHigh hhigh (heq ▸ hlow)
  · exact Iff.rfl

theorem neighbours_cleanText (hlow : isTag low) (before : ℕ) :
    Neighbours tagHigh low before (cleanText text cap) ↔
      Neighbours tagHigh low before (plain text) ∧
        ((plain text).length ≤ cap ∨ before + 2 < cap) := by
  by_cases h : (plain text).length ≤ cap
  · simp [cleanText_short h, h]
  · have hne : low ≠ 0x2026 := by
      rintro rfl
      exact absurd hlow.1 (by decide)
    rw [cleanText_cut (by omega), TRUNCATED, neighbours_concat hne,
      neighbours_dropHighSurrogate hlow.isLow, neighbours_take]
    simp only [h, false_or]
    refine and_congr_right fun _ ↦ ?_
    omega

/-- Such surrogates are in the part that is shown. -/
def Split (text : Utf16) (cap : ℕ) : Prop :=
  ∃ low before, isTag low ∧ Hides text low before ∧
    ((plain text).length ≤ cap ∨ before + 2 < cap)

theorem not_split (h : tagHigh ∉ text) : ¬Split text cap := by
  rintro ⟨low, before, -, ⟨points, removed, rest, hpoints, -⟩, -⟩
  have hmem : tagHigh ∈ remove isControl text := unit_mem_of_mem (by rw [hpoints]; simp)
  rw [basic_control.remove_eq] at hmem
  exact h (List.mem_of_mem_filter hmem)

/-- Nothing hidden is in the text, and cleaning it again leaves it as it is. -/
structure Cleaned (text : Utf16) : Prop where
  control : Free isControl text
  invisible : Free isInvisible text
  bidi : Free isBidiControl text
  again : ∀ cap stats, text.length ≤ cap → clean text cap stats = (text, stats)

theorem cleaned_of_free (hcontrol : Free isControl text) (hinvisible : Free isInvisible text)
    (hbidi : Free isBidiControl text) : Cleaned text where
  control := hcontrol
  invisible := hinvisible
  bidi := hbidi
  again := by
    intro cap stats hlength
    have hplain : plain text = text := by
      rw [plain, remove_of_free hcontrol, remove_of_free hinvisible, stripBidiControls,
        remove_of_free hbidi]
    simp [clean, hplain, hlength]

/-- What is shown of a text is clean when no two surrogates of the tag block meet in it. -/
theorem cleaned_iff : Cleaned (cleanText text cap) ↔ ¬Split text cap := by
  constructor
  · rintro h ⟨low, before, hlow, hhides, hshown⟩
    have hneighbours := (neighbours_cleanText hlow before).mpr
      ⟨(neighbours_plain_iff hlow before).mpr hhides, hshown⟩
    exact (free_invisible_iff.mp h.invisible).2 low before hlow hneighbours
  · intro h
    have hunits : ∀ u ∈ cleanText text cap, isControl u.toNat = false ∧
        isInvisible u.toNat = false ∧ isBidiControl u.toNat = false := by
      intro u hu
      rcases cleanText_units hu with hplain | rfl
      · exact plain_units hplain
      · exact ⟨by decide, by decide, by decide⟩
    refine cleaned_of_free (basic_control.free_iff.mpr fun u hu ↦ (hunits u hu).1)
      (free_invisible_iff.mpr ⟨fun u hu ↦ (hunits u hu).2.1, fun low before hlow hmeet ↦ ?_⟩)
      (basic_bidi.free_iff.mpr fun u hu ↦ (hunits u hu).2.2)
    obtain ⟨hplain, hshown⟩ := (neighbours_cleanText hlow before).mp hmeet
    exact h ⟨low, before, hlow, (neighbours_plain_iff hlow before).mp hplain, hshown⟩

/-! ### Names -/

/-- No name that is withheld is longer. -/
def NAME_MAX : ℕ := 21

variable {name : Utf16}

theorem length_le_of_withheld {isKey : Bool} (h : withheld name isKey = true) :
    name.length ≤ NAME_MAX := by
  have hlists : (SECRET_MEMBERS ++ PRIVATE_KEY_MEMBERS).all
      (fun member ↦ decide (member.length ≤ NAME_MAX)) = true := by rfl
  have hmem : toLowerCase name ∈ SECRET_MEMBERS ++ PRIVATE_KEY_MEMBERS := by
    simp only [withheld, Bool.or_eq_true, Bool.and_eq_true, List.contains_iff_mem] at h
    rcases h with hsecret | ⟨-, hprivate⟩
    · exact List.mem_append_left _ hsecret
    · exact List.mem_append_right _ hprivate
  have hlength := of_decide_eq_true (List.all_eq_true.mp hlists _ hmem)
  simpa [toLowerCase] using hlength

theorem le_length_cleanText (h : cap < (plain text).length) :
    cap ≤ (cleanText text cap).length + 1 := by
  have hdrop : ∀ t : Utf16, t.length ≤ (dropHighSurrogate t).length + 1 := by
    intro t
    unfold dropHighSurrogate
    split_ifs
    · rw [List.length_dropLast]
      omega
    · omega
  have hcut := hdrop ((plain text).take (cap - 1))
  rw [cleanText_cut h, List.length_append]
  rw [List.length_take] at hcut
  have hone : TRUNCATED.length = 1 := rfl
  omega

/-- A short name is one that cleaning leaves when it is what is left of the text. -/
theorem cleanText_eq_iff (hname : name.length ≤ NAME_MAX) :
    cleanText text TEXT_CAP = name ↔ plain text = name := by
  by_cases h : (plain text).length ≤ TEXT_CAP
  · rw [cleanText_short h]
  · have hlong : TEXT_CAP ≤ (cleanText text TEXT_CAP).length + 1 := le_length_cleanText (by omega)
    have hcap : NAME_MAX + 1 < TEXT_CAP := by decide
    constructor
    · rintro rfl
      omega
    · rintro rfl
      omega

theorem withheld_cleanText (key : Utf16) (isKey : Bool) :
    withheld (cleanText key TEXT_CAP) isKey = withheld (plain key) isKey := by
  by_cases h : (plain key).length ≤ TEXT_CAP
  · rw [cleanText_short h]
  · have hlong : TEXT_CAP ≤ (cleanText key TEXT_CAP).length + 1 := le_length_cleanText (by omega)
    have hcap : NAME_MAX + 1 < TEXT_CAP := by decide
    have hshown : withheld (cleanText key TEXT_CAP) isKey = false := by
      by_contra htrue
      have hlength := length_le_of_withheld (by simpa using htrue)
      omega
    have hplain : withheld (plain key) isKey = false := by
      by_contra htrue
      have hlength := length_le_of_withheld (by simpa using htrue)
      omega
    rw [hshown, hplain]

/-! ### Values -/

/-- The name is no secret one, nor one of a private key beside a `kty`. -/
structure Harmless (members : List (Utf16 × Json)) (name : Utf16) : Prop where
  secret : toLowerCase name ∉ SECRET_MEMBERS
  privateKey : hasKty members = true → toLowerCase name ∉ PRIVATE_KEY_MEMBERS

theorem harmless_iff {members : List (Utf16 × Json)} :
    Harmless members name ↔ withheld name (hasKty members) = false := by
  rw [← Bool.not_eq_true]
  simp only [withheld, Bool.or_eq_true, Bool.and_eq_true, List.contains_iff_mem, not_or, not_and]
  exact ⟨fun h ↦ ⟨h.secret, h.privateKey⟩, fun h ↦ ⟨h.1, h.2⟩⟩

/-- Every text and every name is clean, and every name harmless. -/
inductive Clean : Json → Prop where
  | null : Clean .null
  | bool (b : Bool) : Clean (.bool b)
  | number (n : Float) : Clean (.number n)
  | string {text : Utf16} (h : Cleaned text) : Clean (.string text)
  | array {items : List Json} (h : ∀ item ∈ items, Clean item) : Clean (.array items)
  | object {members : List (Utf16 × Json)}
      (hnames : ∀ member ∈ members, Cleaned member.1 ∧ Harmless members member.1)
      (hitems : ∀ member ∈ members, Clean member.2) : Clean (.object members)

/-- Every text and every name of the second is within the cap of its place in the first. -/
inductive Capped (longText : List Utf16) : Bool → Path → Json → Json → Prop where
  | null (inLong : Bool) (path : Path) : Capped longText inLong path .null .null
  | bool (inLong : Bool) (path : Path) (b : Bool) :
      Capped longText inLong path (.bool b) (.bool b)
  | number (inLong : Bool) (path : Path) (n : Float) :
      Capped longText inLong path (.number n) (.number n)
  | string {inLong : Bool} {path : Path} {text text' : Utf16}
      (h : text'.length ≤ capOf inLong) :
      Capped longText inLong path (.string text) (.string text')
  | array {inLong : Bool} {path : Path} {items items' : List Json}
      (hlength : items.length = items'.length)
      (h : ∀ (i : ℕ) item item', items[i]? = some item → items'[i]? = some item' →
        Capped longText inLong path item item') :
      Capped longText inLong path (.array items) (.array items')
  | object {inLong : Bool} {path : Path} {members members' : List (Utf16 × Json)}
      (source : Utf16 × Json → Utf16 × Json)
      (hsource : ∀ member ∈ members', source member ∈ members)
      (hname : ∀ member ∈ members', member.1 = cleanText (source member).1 TEXT_CAP ∧
        member.1.length ≤ TEXT_CAP)
      (h : ∀ member ∈ members', Capped longText
        (inLong || listed longText (path ++ [(source member).1]))
        (path ++ [(source member).1]) (source member).2 member.2) :
      Capped longText inLong path (.object members) (.object members')

/-- The members that are not withheld. -/
def keptMembers (members : List (Utf16 × Json)) : List (Utf16 × Json) :=
  members.filter fun member ↦ !withheld member.1 (hasKty members)

/-- Of the members that are not withheld, those whose values are shown, each with the name it
is shown under: of two with one name, the later. -/
def shownMembers (members : List (Utf16 × Json)) : List (Utf16 × (Utf16 × Json)) :=
  fromEntries ((keptMembers members).map fun member ↦ (cleanText member.1 TEXT_CAP, member))

/-- A member that is not withheld reads `kty` once what is removed from its name is not there. -/
def readsKty (members : List (Utf16 × Json)) : Bool :=
  (keptMembers members).any fun member ↦ plain member.1 == ofAscii "kty"

/-- No surrogates of the tag block meet in what is shown of a text or of a name, and no name
reads as one that is withheld once what is removed from it is not there. -/
inductive Honest (longText : List Utf16) : Bool → Path → Json → Prop where
  | null (inLong : Bool) (path : Path) : Honest longText inLong path .null
  | bool (inLong : Bool) (path : Path) (b : Bool) : Honest longText inLong path (.bool b)
  | number (inLong : Bool) (path : Path) (n : Float) : Honest longText inLong path (.number n)
  | string {inLong : Bool} {path : Path} {text : Utf16} (h : ¬Split text (capOf inLong)) :
      Honest longText inLong path (.string text)
  | array {inLong : Bool} {path : Path} {items : List Json}
      (h : ∀ item ∈ items, Honest longText inLong path item) :
      Honest longText inLong path (.array items)
  | object {inLong : Bool} {path : Path} {members : List (Utf16 × Json)}
      (hnames : ∀ member ∈ keptMembers members,
        ¬Split member.1 TEXT_CAP ∧ withheld (plain member.1) (readsKty members) = false)
      (hitems : ∀ entry ∈ shownMembers members, Honest longText
        (inLong || listed longText (path ++ [entry.2.1])) (path ++ [entry.2.1]) entry.2.2) :
      Honest longText inLong path (.object members)

/-! ### The walk -/

variable {longText : List Utf16} {inLong : Bool} {path : Path}

/-- The item is walked to this one. -/
def Walked (longText : List Utf16) (inLong : Bool) (path : Path) (depth : ℕ)
    (item item' : Json) : Prop :=
  ∃ stats stats', walk longText inLong path item stats depth = .ok (item', stats')

variable {stats stats' : CleanStats} {items items' : List Json}

theorem walkItems_walked {depth : ℕ}
    (h : walkItems longText inLong path items stats depth = .ok (items', stats')) :
    List.Forall₂ (Walked longText inLong path depth) items items' := by
  induction items generalizing items' stats with
  | nil =>
    obtain ⟨rfl, rfl⟩ := Prod.mk.inj (Except.ok.inj h)
    exact .nil
  | cons item rest ih =>
    rw [walkItems] at h
    cases hitem : walk longText inLong path item stats depth with
    | error => simp [hitem, bind, Except.bind] at h
    | ok first =>
      obtain ⟨item', stats₁⟩ := first
      cases hrest : walkItems longText inLong path rest stats₁ depth with
      | error => simp [hitem, hrest, bind, Except.bind] at h
      | ok last =>
        obtain ⟨rest', stats₂⟩ := last
        simp only [hitem, hrest, bind, Except.bind, pure, Except.pure] at h
        obtain ⟨rfl, rfl⟩ := Prod.mk.inj (Except.ok.inj h)
        exact .cons ⟨stats, stats₁, hitem⟩ (ih hrest)

/-- A member is shown under its name as it is cleaned. -/
def WalkedMember (longText : List Utf16) (inLong : Bool) (path : Path) (depth : ℕ)
    (member : Utf16 × Json) : Json → Prop :=
  Walked longText (inLong || listed longText (path ++ [member.1])) (path ++ [member.1]) depth
    member.2

theorem clean_fst (key : Utf16) (cap : ℕ) (stats : CleanStats) :
    (clean key cap stats).1 = cleanText key cap := by
  unfold cleanText clean
  split_ifs <;> rfl

theorem walkMembers_walked {members entries : List (Utf16 × Json)} {isKey : Bool}
    {depth : ℕ}
    (h : walkMembers longText inLong path isKey members stats depth = .ok (entries, stats')) :
    List.Forall₂ (Alike (WalkedMember longText inLong path depth))
      ((members.filter fun member ↦ !withheld member.1 isKey).map
        fun member ↦ (cleanText member.1 TEXT_CAP, member)) entries := by
  induction members generalizing entries stats with
  | nil =>
    obtain ⟨rfl, rfl⟩ := Prod.mk.inj (Except.ok.inj h)
    exact .nil
  | cons member rest ih =>
    obtain ⟨key, item⟩ := member
    rw [walkMembers] at h
    by_cases hkey : withheld key isKey = true
    · rw [if_pos hkey] at h
      rw [List.filter_cons_of_neg (by simp [hkey])]
      exact ih h
    · rw [if_neg hkey] at h
      rw [List.filter_cons_of_pos (by simpa using hkey), List.map_cons]
      cases hitem : walk longText (inLong || listed longText (path ++ [key])) (path ++ [key]) item
          (clean key TEXT_CAP stats).2 depth with
      | error => simp [hitem, bind, Except.bind] at h
      | ok first =>
        obtain ⟨item', stats₁⟩ := first
        cases hrest : walkMembers longText inLong path isKey rest stats₁ depth with
        | error => simp [hitem, hrest, bind, Except.bind] at h
        | ok last =>
          obtain ⟨rest', stats₂⟩ := last
          simp only [hitem, hrest, bind, Except.bind, pure, Except.pure] at h
          obtain ⟨rfl, rfl⟩ := Prod.mk.inj (Except.ok.inj h)
          exact .cons ⟨(clean_fst key TEXT_CAP stats).symm, _, stats₁, hitem⟩ (ih hrest)

/-! ### What is returned -/

theorem forall₂_right {α β : Type} {R : α → β → Prop} {l : List α} {l' : List β}
    (h : List.Forall₂ R l l') {b : β} (hb : b ∈ l') : ∃ a ∈ l, R a b := by
  induction h with
  | nil => simp at hb
  | cons hhead _ ih =>
    rcases List.mem_cons.mp hb with rfl | hrest
    · exact ⟨_, List.mem_cons_self .., hhead⟩
    · obtain ⟨a, ha, hab⟩ := ih hrest
      exact ⟨a, List.mem_cons_of_mem _ ha, hab⟩

theorem forall₂_left {α β : Type} {R : α → β → Prop} {l : List α} {l' : List β}
    (h : List.Forall₂ R l l') {a : α} (ha : a ∈ l) : ∃ b ∈ l', R a b :=
  forall₂_right h.flip ha

section Object

variable {members entries : List (Utf16 × Json)} {depth : ℕ}

/-- The names that are shown are those of the members that are not withheld. -/
theorem name_iff (h : List.Forall₂ (Alike (WalkedMember longText inLong path depth))
      ((keptMembers members).map fun member ↦ (cleanText member.1 TEXT_CAP, member)) entries)
    (name : Utf16) : (∃ item, (name, item) ∈ fromEntries entries) ↔
      ∃ member ∈ keptMembers members, cleanText member.1 TEXT_CAP = name := by
  constructor
  · rintro ⟨item, hitem⟩
    obtain ⟨entry, hentry, hname, -⟩ := forall₂_right h (mem_of_fromEntries hitem)
    obtain ⟨member, hmember, rfl⟩ := List.mem_map.mp hentry
    exact ⟨member, hmember, hname⟩
  · rintro ⟨member, hmember, rfl⟩
    obtain ⟨entry, hentry, hname, -⟩ := forall₂_left h (List.mem_map_of_mem hmember)
    obtain ⟨item, hitem⟩ := names_fromEntries hentry
    refine ⟨item, ?_⟩
    have hname : cleanText member.1 TEXT_CAP = entry.1 := hname
    rw [hname]
    exact hitem

/-- What is shown has a `kty` when a member that is not withheld reads so. -/
theorem hasKty_fromEntries (h : List.Forall₂ (Alike (WalkedMember longText inLong path depth))
      ((keptMembers members).map fun member ↦ (cleanText member.1 TEXT_CAP, member)) entries) :
    hasKty (fromEntries entries) = readsKty members := by
  have hkty : (ofAscii "kty").length ≤ NAME_MAX := by decide
  rw [Bool.eq_iff_iff]
  simp only [hasKty, readsKty, List.any_eq_true, beq_iff_eq]
  constructor
  · rintro ⟨⟨name, item⟩, hmem, rfl⟩
    obtain ⟨member, hmember, hname⟩ := (name_iff h _).mp ⟨item, hmem⟩
    exact ⟨member, hmember, (cleanText_eq_iff hkty).mp hname⟩
  · rintro ⟨member, hmember, hplain⟩
    obtain ⟨item, hitem⟩ :=
      (name_iff h _).mpr ⟨member, hmember, (cleanText_eq_iff hkty).mpr hplain⟩
    exact ⟨_, hitem, rfl⟩

/-- The names that are shown are clean and harmless when those of the members are honest. -/
theorem names_iff (h : List.Forall₂ (Alike (WalkedMember longText inLong path depth))
      ((keptMembers members).map fun member ↦ (cleanText member.1 TEXT_CAP, member)) entries) :
    (∀ member ∈ fromEntries entries,
        Cleaned member.1 ∧ Harmless (fromEntries entries) member.1) ↔
      ∀ member ∈ keptMembers members,
        ¬Split member.1 TEXT_CAP ∧ withheld (plain member.1) (readsKty members) = false := by
  have hone : ∀ key, Cleaned (cleanText key TEXT_CAP) ∧
      Harmless (fromEntries entries) (cleanText key TEXT_CAP) ↔
        ¬Split key TEXT_CAP ∧ withheld (plain key) (readsKty members) = false := by
    intro key
    rw [cleaned_iff, harmless_iff, hasKty_fromEntries h, withheld_cleanText]
  constructor
  · intro hnames member hmember
    obtain ⟨item, hitem⟩ := (name_iff h _).mpr ⟨member, hmember, rfl⟩
    exact (hone member.1).mp (hnames _ hitem)
  · rintro hnames ⟨name, item⟩ hmem
    obtain ⟨member, hmember, rfl⟩ := (name_iff h _).mp ⟨item, hmem⟩
    exact (hone member.1).mpr (hnames member hmember)

end Object

/-- What is returned of a value at that depth: within its caps, and clean when the value is
honest. -/
def WalkSpec (longText : List Utf16) (depth : ℕ) : Prop :=
  ∀ (inLong : Bool) (path : Path) (value result : Json),
    Walked longText inLong path depth value result →
      Capped longText inLong path value result ∧
        (Clean result ↔ Honest longText inLong path value)

/-- The walk of an array, given that of its items. -/
theorem array_spec {depth : ℕ} (hspec : WalkSpec longText depth)
    (h : List.Forall₂ (Walked longText inLong path depth) items items') :
    Capped longText inLong path (.array items) (.array items') ∧
      (Clean (.array items') ↔ Honest longText inLong path (.array items)) := by
  refine ⟨.array h.length_eq fun i item item' hitem hitem' ↦ ?_, ?_, ?_⟩
  · obtain ⟨hlt, rfl⟩ := List.getElem?_eq_some_iff.mp hitem
    obtain ⟨hlt', rfl⟩ := List.getElem?_eq_some_iff.mp hitem'
    exact (hspec _ _ _ _ (h.get hlt hlt')).1
  · intro hclean
    cases hclean with
    | array hitems =>
      refine .array fun item hitem ↦ ?_
      obtain ⟨item', hitem', hwalked⟩ := forall₂_left h hitem
      exact (hspec _ _ _ _ hwalked).2.mp (hitems item' hitem')
  · intro hhonest
    cases hhonest with
    | array hitems =>
      refine .array fun item' hitem' ↦ ?_
      obtain ⟨item, hitem, hwalked⟩ := forall₂_right h hitem'
      exact (hspec _ _ _ _ hwalked).2.mpr (hitems item hitem)

/-- The walk of an object, given that of its members. -/
theorem object_spec {members entries : List (Utf16 × Json)} {depth : ℕ}
    (hspec : WalkSpec longText depth)
    (h : List.Forall₂ (Alike (WalkedMember longText inLong path depth))
      ((keptMembers members).map fun member ↦ (cleanText member.1 TEXT_CAP, member)) entries) :
    Capped longText inLong path (.object members) (.object (fromEntries entries)) ∧
      (Clean (.object (fromEntries entries)) ↔
        Honest longText inLong path (.object members)) := by
  have hshown : List.Forall₂ (Alike (WalkedMember longText inLong path depth))
      (shownMembers members) (fromEntries entries) := Alike.fromEntries h
  have hmembers : ∀ entry ∈ shownMembers members, entry.2 ∈ members := by
    intro entry hentry
    obtain ⟨member, hmember, rfl⟩ := List.mem_map.mp (mem_of_fromEntries hentry)
    exact List.mem_of_mem_filter hmember
  refine ⟨?_, ?_, ?_⟩
  · have hsource : ∀ member ∈ fromEntries entries, ∃ entry ∈ shownMembers members,
        Alike (WalkedMember longText inLong path depth) entry member :=
      fun member hmember ↦ forall₂_right hshown hmember
    choose! source hmem halike using hsource
    refine .object (fun member ↦ (source member).2)
      (fun member hmember ↦ hmembers _ (hmem member hmember)) (fun member hmember ↦ ?_)
      fun member hmember ↦ (hspec _ _ _ _ (halike member hmember).2).1
    obtain ⟨key, -, hentry⟩ := List.mem_map.mp (mem_of_fromEntries (hmem member hmember))
    have hname : member.1 = cleanText (source member).2.1 TEXT_CAP := by
      rw [← (halike member hmember).1, ← hentry]
    exact ⟨hname, hname ▸ length_cleanText_le (by decide)⟩
  · intro hclean
    cases hclean with
    | object hnames hitems =>
      refine .object ((names_iff h).mp hnames) fun entry hentry ↦ ?_
      obtain ⟨member, hmember, hwalked⟩ := forall₂_left hshown hentry
      exact (hspec _ _ _ _ hwalked.2).2.mp (hitems member hmember)
  · intro hhonest
    cases hhonest with
    | object hnames hitems =>
      refine .object ((names_iff h).mpr hnames) fun member hmember ↦ ?_
      obtain ⟨entry, hentry, hwalked⟩ := forall₂_right hshown hmember
      exact (hspec _ _ _ _ hwalked.2).2.mpr (hitems entry hentry)

theorem capOf_pos (inLong : Bool) : 0 < capOf inLong := by
  cases inLong <;> decide

/-- A value is walked at a depth as its parts are at the next. -/
theorem walkSpec_step {depth : ℕ} (hnext : depth < MAX_DEPTH → WalkSpec longText (depth + 1)) :
    WalkSpec longText depth := by
  rintro inLong path value result ⟨stats, stats', h⟩
  cases value with
  | null =>
    obtain ⟨rfl, -⟩ := Prod.mk.inj (Except.ok.inj h)
    exact ⟨.null _ _, fun _ ↦ .null _ _, fun _ ↦ .null⟩
  | bool =>
    obtain ⟨rfl, -⟩ := Prod.mk.inj (Except.ok.inj h)
    exact ⟨.bool _ _ _, fun _ ↦ .bool _ _ _, fun _ ↦ .bool _⟩
  | number =>
    obtain ⟨rfl, -⟩ := Prod.mk.inj (Except.ok.inj h)
    exact ⟨.number _ _ _, fun _ ↦ .number _ _ _, fun _ ↦ .number _⟩
  | string text =>
    have hresult : result = .string (cleanText text (capOf inLong)) := by
      rw [← clean_fst text (capOf inLong) stats]
      exact (Prod.mk.inj (Except.ok.inj h)).1.symm
    subst hresult
    refine ⟨.string (length_cleanText_le (capOf_pos inLong)), fun hclean ↦ ?_, fun hhonest ↦ ?_⟩
    · cases hclean with
      | string hcleaned => exact .string (cleaned_iff.mp hcleaned)
    · cases hhonest with
      | string hsplit => exact .string (cleaned_iff.mpr hsplit)
  | array items =>
    rw [walk] at h
    by_cases hdepth : MAX_DEPTH ≤ depth
    · simp [hdepth] at h
    · rw [if_neg hdepth] at h
      cases hitems : walkItems longText inLong path items stats (depth + 1) with
      | error => simp [hitems, bind, Except.bind] at h
      | ok =>
        simp only [hitems, bind, Except.bind, pure, Except.pure] at h
        obtain ⟨rfl, -⟩ := Prod.mk.inj (Except.ok.inj h)
        exact array_spec (hnext (by omega)) (walkItems_walked hitems)
  | object members =>
    rw [walk] at h
    by_cases hdepth : MAX_DEPTH ≤ depth
    · simp [hdepth] at h
    · rw [if_neg hdepth] at h
      cases hentries : walkMembers longText inLong path (hasKty members) members stats
          (depth + 1) with
      | error => simp [hentries, bind, Except.bind] at h
      | ok =>
        simp only [hentries, bind, Except.bind, pure, Except.pure] at h
        obtain ⟨rfl, -⟩ := Prod.mk.inj (Except.ok.inj h)
        exact object_spec (hnext (by omega)) (walkMembers_walked hentries)

theorem walkSpec (n depth : ℕ) (hdepth : MAX_DEPTH ≤ depth + n) : WalkSpec longText depth := by
  induction n generalizing depth with
  | zero => exact walkSpec_step fun hlt ↦ absurd hlt (by omega)
  | succ n ih => exact walkSpec_step fun _ ↦ ih (depth + 1) (by omega)

/-- What is returned of a value is within its caps, and nothing in it is hidden or secret, when
and only when the value is honest. -/
theorem cleanData_clean_iff {value result : Json} {stats stats' : CleanStats}
    {longText : List Utf16} (h : cleanData value stats longText = .ok (result, stats')) :
    Capped longText false [] value result ∧ Clean result ↔ Honest longText false [] value := by
  obtain ⟨hcapped, hclean⟩ := walkSpec MAX_DEPTH 0 (by decide) _ _ _ _ ⟨stats, stats', h⟩
  exact ⟨fun hboth ↦ hclean.mp hboth.2, fun hhonest ↦ ⟨hcapped, hclean.mpr hhonest⟩⟩

/-- `pass`, a zero width space, `word`. -/
def hiddenPassword : Json :=
  .object [(ofAscii "pass" ++ 0x200B :: ofAscii "word", .string (ofAscii "s3cret"))]

/-- A name and a text with something to remove, and a member that is withheld. -/
def mixed : Json :=
  .object [(ofAscii "na" ++ 0x200B :: ofAscii "me", .string (0x202E :: ofAscii "Ada")),
    (ofAscii "password", .string (ofAscii "s3cret"))]

/-- What is shown of it. -/
def named : Json := .object [(ofAscii "name", .string (ofAscii "Ada"))]

/-- The name is no longer withheld when it reads `password`. -/
theorem hiddenPassword_shown : ¬ ∀ (value result : Json) (stats stats' : CleanStats)
    (longText : List Utf16), cleanData value stats longText = .ok (result, stats') →
      Capped longText false [] value result ∧ Clean result := by
  intro hclaim
  have hclean := (hclaim hiddenPassword
    (.object [(ofAscii "password", .string (ofAscii "s3cret"))]) ⟨false⟩ ⟨false⟩ [] rfl).2
  cases hclean with
  | object hnames =>
    have hsecret := (hnames _ (List.mem_singleton.mpr rfl)).2.secret
    exact hsecret (by decide)

theorem cleanData_clean_iff_mixed : Capped [] false [] mixed named ∧ Clean named := by
  have hhonest : Honest [] false [] mixed := by
    refine .object (fun member hmember ↦ ?_) fun entry hentry ↦ ?_
    · obtain rfl := List.mem_singleton.mp (show member ∈ [_] from hmember)
      exact ⟨not_split (by decide), rfl⟩
    · obtain rfl := List.mem_singleton.mp (show entry ∈ [_] from hentry)
      exact .string (not_split (by decide))
  exact (cleanData_clean_iff (show cleanData mixed ⟨false⟩ [] = .ok (named, ⟨false⟩) from rfl)).mpr
    hhonest

end Odudu.Mcp
