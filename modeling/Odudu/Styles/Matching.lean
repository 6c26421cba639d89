import Odudu.Styles.Elements
import Odudu.Texts.Ascii

/-!
# Selectors and what they match

A selector is compounds in the order they are written, each with the combinator before it.  It
matches a place that its last compound matches, where the compounds before it match places that
the combinators lead to.  Each compound of a selector that matches has an element of the
document to match (`Selector.Matches.exists_fits`).

What a pseudo-class holds of is not said here: it may be where an element stands or what a
person does with it.

A selector's text is of types, classes, pseudo-classes, pseudo-elements and combinators, in ASCII
and without escapes.  Types and pseudo-classes are read whatever the case of their letters, and a
pseudo-element is the last of its compound.
-/

set_option autoImplicit false

namespace Odudu.Styles

structure Compound (Name : Type) where
  tag : Option Name
  classes : List Name
  pseudoClasses : List Name
  pseudoElement : Option Name

inductive Combinator where
  | descendant
  | child
  | nextSibling
  | subsequentSibling

structure Selector (Name : Type) where
  first : Compound Name
  next : List (Combinator × Compound Name)

variable {Name Origin : Type}

namespace Selector

def compounds (selector : Selector Name) : List (Compound Name) :=
  selector.first :: selector.next.map Prod.snd

/-- The compound that the matched element is of. -/
def subject (selector : Selector Name) : Compound Name :=
  selector.compounds.getLast (List.cons_ne_nil _ _)

end Selector

/-! ### Matching -/

/-- What a compound asks of an element itself. -/
def Compound.Fits (compound : Compound Name) (element : Element Name Origin) : Prop :=
  (∀ tag ∈ compound.tag, tag = element.tag) ∧ compound.classes ⊆ element.classes

/-- From the place of the left compound to the one of the right. -/
inductive Related : Combinator → Place Name Origin → Place Name Origin → Prop where
  | descendant (frame outer : Frame Name Origin) (between place : Place Name Origin) :
      Related .descendant (outer :: place) (frame :: (between ++ outer :: place))
  | child (frame outer : Frame Name Origin) (place : Place Name Origin) :
      Related .child (outer :: place) (frame :: outer :: place)
  | nextSibling (element sibling : Element Name Origin) (before after : List (Element Name Origin))
      (place : Place Name Origin) :
      Related .nextSibling (⟨sibling, before, element :: after⟩ :: place)
        (⟨element, sibling :: before, after⟩ :: place)
  | subsequentSibling (element sibling : Element Name Origin)
      (between before after : List (Element Name Origin)) (place : Place Name Origin) :
      Related .subsequentSibling
        (⟨sibling, before, between.reverse ++ element :: after⟩ :: place)
        (⟨element, between ++ sibling :: before, after⟩ :: place)

section Matching

variable (holds : Name → Place Name Origin → Prop)

def Compound.Matches (compound : Compound Name) (place : Place Name Origin) : Prop :=
  (∃ frame outer, place = frame :: outer ∧ compound.Fits frame.element) ∧
    ∀ name ∈ compound.pseudoClasses, holds name place

/-- The compounds lead from one place to another, each matching where it leads to. -/
def Leads : List (Combinator × Compound Name) → Place Name Origin → Place Name Origin → Prop
  | [], start, place => start = place
  | (combinator, compound) :: next, start, place =>
    ∃ step, Related combinator start step ∧ compound.Matches holds step ∧ Leads next step place

/-- The selector matches the element of a place, and not a part of it that only a style makes. -/
def Selector.Matches (selector : Selector Name) (place : Place Name Origin) : Prop :=
  selector.subject.pseudoElement = none ∧
    ∃ start, selector.first.Matches holds start ∧ Leads holds selector.next start place

variable {holds}

theorem Related.around_subset {combinator : Combinator} {start place : Place Name Origin}
    (h : Related combinator start place) : around start ⊆ around place := by
  intro e he
  cases h with
  | descendant =>
    rw [around_cons, around, List.flatMap_append]
    exact List.mem_append_right _ (List.mem_append_right _ he)
  | child =>
    rw [around_cons]
    exact List.mem_append_right _ he
  | nextSibling =>
    simp only [around_cons, Frame.around, List.mem_append, List.mem_cons] at he ⊢
    tauto
  | subsequentSibling =>
    simp only [around_cons, Frame.around, List.mem_append, List.mem_cons, List.mem_reverse] at he ⊢
    tauto

variable {next : List (Combinator × Compound Name)}

theorem Leads.around_subset :
    ∀ {start place : Place Name Origin}, Leads holds next start place →
      around start ⊆ around place := by
  induction next with
  | nil =>
    intro start place h
    obtain rfl : start = place := h
    exact List.Subset.refl _
  | cons _ _ ih =>
    intro start place h
    obtain ⟨step, hrelated, -, hleads⟩ := h
    exact List.Subset.trans hrelated.around_subset (ih hleads)

variable {place : Place Name Origin}

theorem Compound.Matches.exists_fits {compound : Compound Name}
    (h : compound.Matches holds place) : ∃ e ∈ around place, compound.Fits e := by
  obtain ⟨⟨frame, outer, rfl, hfits⟩, -⟩ := h
  exact ⟨frame.element, element_mem_around frame outer, hfits⟩

theorem Leads.exists_fits :
    ∀ {start place : Place Name Origin}, Leads holds next start place →
      ∀ compound ∈ next.map Prod.snd, ∃ e ∈ around place, compound.Fits e := by
  induction next with
  | nil =>
    intro start place _ compound hcompound
    exact absurd hcompound List.not_mem_nil
  | cons _ _ ih =>
    intro start place h compound hcompound
    obtain ⟨step, -, hmatches, hleads⟩ := h
    rcases List.mem_cons.mp hcompound with rfl | hcompound
    · obtain ⟨e, he, hfits⟩ := hmatches.exists_fits
      exact ⟨e, hleads.around_subset he, hfits⟩
    · exact ih hleads compound hcompound

variable {selector : Selector Name}

/-- Each compound fits an element that the matched one has around it. -/
theorem Selector.Matches.exists_fits
    (h : selector.Matches holds place) :
    ∀ compound ∈ selector.compounds, ∃ e ∈ around place, compound.Fits e := by
  obtain ⟨-, start, hfirst, hleads⟩ := h
  intro compound hcompound
  rcases List.mem_cons.mp hcompound with rfl | hcompound
  · obtain ⟨e, he, hfits⟩ := hfirst.exists_fits
    exact ⟨e, hleads.around_subset he, hfits⟩
  · exact hleads.exists_fits compound hcompound

theorem Leads.fits_last :
    ∀ {compound : Compound Name} {start place : Place Name Origin},
      compound.Matches holds start → Leads holds next start place →
        ∃ frame outer, place = frame :: outer ∧
          ((compound :: next.map Prod.snd).getLast (List.cons_ne_nil _ _)).Fits frame.element := by
  induction next with
  | nil =>
    intro compound start place hmatches h
    obtain rfl : start = place := h
    exact hmatches.1
  | cons _ _ ih =>
    intro compound start place _ h
    obtain ⟨step, -, hmatches, hleads⟩ := h
    exact ih hmatches hleads

/-- The last compound fits the matched element. -/
theorem Selector.Matches.fits_subject {frame : Frame Name Origin}
    {outer : Place Name Origin} (h : selector.Matches holds (frame :: outer)) :
    selector.subject.Fits frame.element := by
  obtain ⟨-, start, hfirst, hleads⟩ := h
  obtain ⟨frame', outer', hplace, hfits⟩ := hleads.fits_last hfirst
  obtain ⟨rfl, -⟩ := List.cons.inj hplace
  exact hfits

end Matching

open Texts

/-- White space between the tokens of a stylesheet. -/
def isCssSpace (u : UInt16) : Bool :=
  u == 0x20 || u == 0x09 || u == 0x0D || u == 0x0A || u == 0x0C

/-- What a name goes on with. -/
def isIdentUnit (u : UInt16) : Bool :=
  isLetterUnit u || isDigitUnit u || u == 0x2D || u == 0x5F

def IsIdent (text : Utf16) : Prop :=
  (∃ u ∈ text.head?, isDigitUnit u = false) ∧ ∀ u ∈ text, isIdentUnit u = true

def AllSpace (text : Utf16) : Prop := ∀ u ∈ text, isCssSpace u = true

def lowerText (text : Utf16) : Utf16 := text.map lowerUnit

/-- The parts of a compound after its type. -/
inductive SpellsParts : List Utf16 → List Utf16 → Option Utf16 → Utf16 → Prop where
  | nothing : SpellsParts [] [] none []
  | pseudoElement (name : Utf16) (h : IsIdent name) :
      SpellsParts [] [] (some (lowerText name)) (0x3A :: 0x3A :: name)
  | classPart (name : Utf16) (h : IsIdent name) (classes pseudoClasses : List Utf16)
      (pseudoElement : Option Utf16) (text : Utf16)
      (hrest : SpellsParts classes pseudoClasses pseudoElement text) :
      SpellsParts (name :: classes) pseudoClasses pseudoElement (0x2E :: (name ++ text))
  | pseudoClass (name : Utf16) (h : IsIdent name) (classes pseudoClasses : List Utf16)
      (pseudoElement : Option Utf16) (text : Utf16)
      (hrest : SpellsParts classes pseudoClasses pseudoElement text) :
      SpellsParts classes (lowerText name :: pseudoClasses) pseudoElement (0x3A :: (name ++ text))

/-- The text of a compound is of its type and of the rest. -/
def Compound.Spells (compound : Compound Utf16) (text : Utf16) : Prop :=
  ∃ tag parts, text = tag ++ parts ∧ text ≠ [] ∧
    (tag = [] ∧ compound.tag = none ∨ IsIdent tag ∧ compound.tag = some (lowerText tag)) ∧
    SpellsParts compound.classes compound.pseudoClasses compound.pseudoElement parts

/-- The sign of a combinator that has one. -/
def Combinator.sign : Combinator → Option UInt16
  | .descendant => none
  | .child => some 0x3E
  | .nextSibling => some 0x2B
  | .subsequentSibling => some 0x7E

def Combinator.Spells (combinator : Combinator) (text : Utf16) : Prop :=
  match combinator.sign with
  | none => text ≠ [] ∧ AllSpace text
  | some sign => ∃ before after, AllSpace before ∧ AllSpace after ∧ text = before ++ sign :: after

def SpellsNext : List (Combinator × Compound Utf16) → Utf16 → Prop
  | [], text => text = []
  | (combinator, compound) :: next, text =>
    ∃ joint word rest, text = joint ++ (word ++ rest) ∧ combinator.Spells joint ∧
      compound.Spells word ∧ SpellsNext next rest

def Selector.Spells (selector : Selector Utf16) (text : Utf16) : Prop :=
  ∃ before word rest after, AllSpace before ∧ AllSpace after ∧
    text = before ++ (word ++ rest ++ after) ∧ selector.first.Spells word ∧
    SpellsNext selector.next rest

/-! ### Units of the parts -/

variable {u : UInt16}

theorem isCssSpace_iff :
    isCssSpace u = true ↔ u = 0x20 ∨ u = 0x09 ∨ u = 0x0D ∨ u = 0x0A ∨ u = 0x0C := by
  simp [isCssSpace, or_assoc]

theorem isIdentUnit_of_letter (h : isLetterUnit u = true) : isIdentUnit u = true := by
  rw [isIdentUnit, h, Bool.true_or, Bool.true_or, Bool.true_or]

theorem isIdentUnit_of_digit (h : isDigitUnit u = true) : isIdentUnit u = true := by
  rw [isIdentUnit, h, Bool.or_true, Bool.true_or, Bool.true_or]

theorem IsIdent.ne_nil {text : Utf16} (h : IsIdent text) : text ≠ [] := by
  rintro rfl
  obtain ⟨u, hu, -⟩ := h.1
  exact absurd hu (by simp)

end Odudu.Styles
