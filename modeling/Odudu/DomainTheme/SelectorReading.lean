import Odudu.DomainTheme.StylesheetSelectors

/-!
# What a selector is read as

A text that `readSelector` accepts is read as the compounds that it spells
(`readSelector_of_spells`).  Where a name of the text has more units than the pattern of its
part takes, the scan is stuck inside the name and no combinator is found there.
-/

set_option autoImplicit false

namespace Odudu.DomainTheme.Stylesheets

open Texts Styles

/-- What is kept of a compound. -/
def kept (compound : Compound Utf16) : ReadCompound := ⟨compound.tag, compound.classes⟩

/-- A unit that is of a compound and not of what stands between two. -/
def isPartUnit (u : UInt16) : Bool := isIdentUnit u || u == 0x2E || u == 0x3A

/-- A text where no compound goes on. -/
def Apart (text : Utf16) : Prop := ∀ u ∈ text.head?, isPartUnit u = false

/-- A text where a compound goes on. -/
def Stuck (text : Utf16) : Prop := ∃ u ∈ text.head?, isPartUnit u = true

variable {u : UInt16}

theorem isIdentUnit_of_not_part (h : isPartUnit u = false) :
    isIdentUnit u = false ∧ u ≠ 0x2E ∧ u ≠ 0x3A := by
  simp only [isPartUnit, Bool.or_eq_false_iff, beq_eq_false_iff_ne] at h
  exact ⟨h.1.1, h.1.2, h.2⟩

theorem isPartUnit_of_ident (h : isIdentUnit u = true) : isPartUnit u = true := by
  rw [isPartUnit, h, Bool.true_or, Bool.true_or]

theorem not_isPartUnit_of_space (h : isCssSpace u = true) : isPartUnit u = false := by
  rcases isCssSpace_iff.mp h with rfl | rfl | rfl | rfl | rfl <;> decide

theorem isIdentUnit_colon : isIdentUnit 0x3A = false := by decide

theorem isIdentUnit_dot : isIdentUnit 0x2E = false := by decide

/-! ### Names -/

/-- A pattern takes a name whole, or stops inside it. -/
theorem takeWhile_name {p : UInt16 → Bool} {name rest : Utf16}
    (hname : ∀ u ∈ name, isIdentUnit u = true) (hp : ∀ u, p u = true → isIdentUnit u = true)
    (hrest : ∀ u ∈ rest.head?, isIdentUnit u = false) :
    (name ++ rest).takeWhile p = name ∨
      ∃ v tail, name = (name ++ rest).takeWhile p ++ v :: tail ∧ isIdentUnit v = true ∧
        p v = false := by
  induction name with
  | nil =>
    refine Or.inl ?_
    cases rest with
    | nil => rfl
    | cons u =>
      have hu := hrest u rfl
      refine List.takeWhile_cons_of_neg fun h ↦ ?_
      rw [hp u h] at hu
      cases hu
  | cons u name ih =>
    have hu := hname u List.mem_cons_self
    by_cases hpu : p u = true
    · rw [List.cons_append, List.takeWhile_cons_of_pos hpu]
      rcases ih fun v hv ↦ hname v (List.mem_cons_of_mem _ hv) with h | ⟨v, tail, h, hv, hpv⟩
      · exact Or.inl (by rw [h])
      · exact Or.inr ⟨v, tail, by rw [List.cons_append, ← h], hv, hpv⟩
    · refine Or.inr ⟨u, name, ?_, hu, by simpa using hpu⟩
      rw [List.cons_append, List.takeWhile_cons_of_neg hpu, List.nil_append]

theorem takeWhile_ident {name rest : Utf16} (hname : ∀ u ∈ name, isIdentUnit u = true)
    (hrest : ∀ u ∈ rest.head?, isIdentUnit u = false) :
    (name ++ rest).takeWhile isIdentUnit = name := by
  rcases takeWhile_name hname (fun _ h ↦ h) hrest with h | ⟨v, tail, -, hv, hpv⟩
  · exact h
  · rw [hv] at hpv
    cases hpv

theorem Apart.ident {text : Utf16} (h : Apart text) :
    ∀ u ∈ text.head?, isIdentUnit u = false := fun u hu ↦ (isIdentUnit_of_not_part (h u hu)).1

/-! ### The parts of a compound -/

section Parts

variable {classes classes' : List Utf16} {any last last' : Bool} {left : Utf16}

theorem readParts_skip (taken rest : Utf16) :
    readParts classes any last taken.length (taken ++ rest) = readParts classes any last 0 rest := by
  induction taken with
  | nil => rfl
  | cons _ _ ih =>
    rw [List.cons_append, List.length_cons, readParts, if_pos (Nat.succ_pos _),
      Nat.add_sub_cancel]
    exact ih

variable {rest : Utf16}

/-- Where no part begins the loop ends. -/
theorem readParts_none {u : UInt16} (hdot : u ≠ 0x2E) (hcolon : u ≠ 0x3A)
    (h : readParts classes any last 0 (u :: rest) = .ok (classes', last', left)) :
    any = true ∧ classes' = classes ∧ left = u :: rest := by
  have hclass : matchClass (u :: rest) = none := by
    unfold matchClass
    split
    · rename_i heq
      exact absurd (List.cons.inj heq).1 hdot
    · rfl
  have hpseudo : matchPseudo (u :: rest) = none := by
    unfold matchPseudo
    split
    · rename_i heq
      exact absurd (List.cons.inj heq).1 hcolon
    · rename_i heq
      exact absurd (List.cons.inj heq).1 hcolon
    · rfl
  rw [readParts, if_neg (lt_irrefl _), hclass, hpseudo] at h
  split at h
  · cases h
  · cases any with
    | false => cases h
    | true =>
      simp only [↓reduceIte, Except.ok.injEq, Prod.mk.injEq] at h
      exact ⟨rfl, h.1.symm, h.2.2.symm⟩

/-- Inside a name the loop ends there. -/
theorem stuck_of_readParts {v : UInt16} (hv : isIdentUnit v = true)
    (h : readParts classes any last 0 (v :: rest) = .ok (classes', last', left)) : Stuck left := by
  have hdot : v ≠ 0x2E := by
    rintro rfl
    cases hv
  have hcolon : v ≠ 0x3A := by
    rintro rfl
    cases hv
  obtain ⟨-, -, rfl⟩ := readParts_none hdot hcolon h
  exact ⟨v, rfl, isPartUnit_of_ident hv⟩

/-- After a name that a pattern has taken some of, the loop goes on behind the name or is stuck
inside it. -/
theorem readParts_name {p : UInt16 → Bool} {name rest : Utf16}
    (hname : ∀ u ∈ name, isIdentUnit u = true) (hp : ∀ u, p u = true → isIdentUnit u = true)
    (hrest : ∀ u ∈ rest.head?, isIdentUnit u = false)
    (h : readParts classes any last ((name ++ rest).takeWhile p).length (name ++ rest) =
      .ok (classes', last', left)) :
    Stuck left ∨ (name ++ rest).takeWhile p = name ∧
      readParts classes any last 0 rest = .ok (classes', last', left) := by
  have htaken := takeWhile_name hname hp hrest
  generalize (name ++ rest).takeWhile p = taken at h htaken ⊢
  rcases htaken with rfl | ⟨v, tail, rfl, hv, -⟩
  · rw [readParts_skip] at h
    exact Or.inr ⟨rfl, h⟩
  · rw [List.append_assoc, readParts_skip, List.cons_append] at h
    exact Or.inl (stuck_of_readParts hv h)

variable {names pseudoClasses : List Utf16} {pseudoElement : Option Utf16}

theorem head_of_spells
    {parts : Utf16} (h : SpellsParts names pseudoClasses pseudoElement parts) :
    ∀ u ∈ parts.head?, u = 0x2E ∨ u = 0x3A := by
  intro u hu
  cases h with
  | nothing => exact absurd hu (by simp)
  | pseudoElement => exact Or.inr (Option.some.inj hu).symm
  | classPart =>
    exact Or.inl (Option.some.inj hu).symm
  | pseudoClass =>
    exact Or.inr (Option.some.inj hu).symm

/-- A name is not gone on with by the parts after it, nor by what is apart from them. -/
theorem ident_of_spells
    {parts rest : Utf16} (h : SpellsParts names pseudoClasses pseudoElement parts)
    (hrest : Apart rest) : ∀ u ∈ (parts ++ rest).head?, isIdentUnit u = false := by
  intro u hu
  cases parts with
  | nil => exact hrest.ident u hu
  | cons v =>
    obtain rfl : v = u := Option.some.inj hu
    rcases head_of_spells h v rfl with rfl | rfl
    · exact isIdentUnit_dot
    · exact isIdentUnit_colon

theorem matchPseudo_single {text : Utf16} (h : ∀ u ∈ text.head?, u ≠ 0x3A) :
    matchPseudo (0x3A :: text) = (matchPseudoName text).map (false, ·) := by
  unfold matchPseudo
  split
  · rename_i heq
    obtain ⟨-, rfl⟩ := List.cons.inj heq
    exact absurd rfl (h _ rfl)
  · rename_i heq
    obtain ⟨-, rfl⟩ := List.cons.inj heq
    rfl
  · rename_i hother
    exact absurd rfl (hother text)

variable {text name : Utf16}

theorem matchPseudoName_eq (h : matchPseudoName text = some name) :
    name = text.takeWhile fun u ↦ isLetterUnit u || u == 0x2D := by
  unfold matchPseudoName at h
  split at h
  · exact (Option.some.inj h).symm
  · cases h

/-- One part that begins with a colon: the loop goes on behind what the pattern takes of its
name. -/
theorem readParts_pseudo (double : Bool)
    (hmatch : matchPseudo (0x3A :: text) = (matchPseudoName name).map (double, ·))
    (htext : text = if double then 0x3A :: name else name)
    (h : readParts classes any last 0 (0x3A :: text) = .ok (classes', last', left)) :
    Stuck left ∨ ∃ ended, readParts classes true ended
      (name.takeWhile fun u ↦ isLetterUnit u || u == 0x2D).length name =
        .ok (classes', last', left) := by
  have hclass : matchClass (0x3A :: text) = none := rfl
  rw [readParts, if_neg (lt_irrefl _), hclass, hmatch] at h
  split at h
  · cases h
  · cases hname : matchPseudoName name with
    | none =>
      rw [hname] at h
      cases any with
      | false => cases h
      | true =>
        simp only [Option.map_none, ↓reduceIte, Except.ok.injEq, Prod.mk.injEq] at h
        exact Or.inl ⟨0x3A, by rw [← h.2.2]; rfl, rfl⟩
    | some =>
      rw [hname, Option.map_some] at h
      rw [← matchPseudoName_eq hname]
      cases double with
      | false =>
        simp only [Bool.false_eq_true, ↓reduceIte] at h htext
        split at h
        · cases h
        · exact Or.inr ⟨last, htext ▸ h⟩
      | true =>
        simp only [↓reduceIte] at h htext
        split at h
        · cases h
        · subst htext
          exact Or.inr ⟨true, h⟩

/-- One class: the loop goes on behind its name. -/
theorem readParts_class {name rest : Utf16} (hname : IsIdent name)
    (hrest : ∀ u ∈ rest.head?, isIdentUnit u = false)
    (h : readParts classes any last 0 (0x2E :: (name ++ rest)) = .ok (classes', last', left)) :
    Stuck left ∨ readParts (classes ++ [name]) true last 0 rest = .ok (classes', last', left) := by
  rw [readParts, if_neg (lt_irrefl _)] at h
  split at h
  · cases h
  · cases hmatch : matchClass (0x2E :: (name ++ rest)) with
    | none =>
      have hpseudo : matchPseudo (0x2E :: (name ++ rest)) = none := rfl
      rw [hmatch, hpseudo] at h
      cases any with
      | false => cases h
      | true =>
        simp only [↓reduceIte, Except.ok.injEq, Prod.mk.injEq] at h
        exact Or.inl ⟨0x2E, by rw [← h.2.2]; rfl, rfl⟩
    | some taken =>
      have htaken : taken = name := by
        simp only [matchClass] at hmatch
        split at hmatch
        · rw [takeWhile_ident hname.2 hrest] at hmatch
          exact (Option.some.inj hmatch).symm
        · cases hmatch
      subst htaken
      rw [hmatch] at h
      simp only at h
      split at h
      · cases h
      · rw [readParts_skip] at h
        exact Or.inr h

theorem pseudo_ident (u : UInt16) (h : (isLetterUnit u || u == 0x2D) = true) :
    isIdentUnit u = true := by
  rcases Bool.or_eq_true _ _ ▸ h with h | h
  · exact isIdentUnit_of_letter h
  · rw [beq_iff_eq.mp h]
    decide

/-- Where the parts end the loop ends. -/
theorem readParts_apart (hrest : Apart rest)
    (h : readParts classes any last 0 rest = .ok (classes', last', left)) :
    classes' = classes ∧ left = rest := by
  cases rest with
  | nil =>
    cases any with
    | false => cases h
    | true =>
      simp only [readParts, ↓reduceIte, Except.ok.injEq, Prod.mk.injEq] at h
      exact ⟨h.1.symm, h.2.2.symm⟩
  | cons u =>
    obtain ⟨-, hdot, hcolon⟩ := isIdentUnit_of_not_part (hrest u rfl)
    exact (readParts_none hdot hcolon h).2

/-- The loop reads the classes, and stops where the parts end unless it is stuck before. -/
theorem readParts_of_spells
    {parts rest : Utf16} (hparts : SpellsParts names pseudoClasses pseudoElement parts)
    (hrest : Apart rest) :
    ∀ {classes : List Utf16} {any last : Bool},
      readParts classes any last 0 (parts ++ rest) = .ok (classes', last', left) →
        Stuck left ∨ classes' = classes ++ names ∧ left = rest := by
  induction hparts with
  | nothing =>
    intro classes any last h
    rw [List.nil_append] at h
    rw [List.append_nil]
    exact Or.inr (readParts_apart hrest h)
  | pseudoElement _ hname =>
    intro classes any last h
    rw [List.append_nil]
    rcases readParts_pseudo true rfl rfl h with hstuck | ⟨ended, h⟩
    · exact Or.inl hstuck
    · rcases readParts_name hname.2 pseudo_ident hrest.ident h with hstuck | ⟨-, h⟩
      · exact Or.inl hstuck
      · exact Or.inr (readParts_apart hrest h)
  | classPart _ hname _ _ _ _ htext ih =>
    intro classes any last h
    rw [List.cons_append, List.append_assoc] at h
    rcases readParts_class hname (ident_of_spells htext hrest) h with hstuck | h
    · exact Or.inl hstuck
    · rcases ih h with hstuck | ⟨hclasses, hleft⟩
      · exact Or.inl hstuck
      · exact Or.inr ⟨by rw [hclasses, List.append_assoc, List.singleton_append], hleft⟩
  | pseudoClass name hname _ _ _ text htext ih =>
    intro classes any last h
    have hhead : ∀ u ∈ (name ++ (text ++ rest)).head?, u ≠ 0x3A := by
      rintro u hu rfl
      rw [List.head?_append_of_ne_nil _ hname.ne_nil] at hu
      cases hname.2 _ (List.mem_of_mem_head? hu)
    rw [List.cons_append, List.append_assoc] at h
    rcases readParts_pseudo false (matchPseudo_single hhead) rfl h with
      hstuck | ⟨ended, h⟩
    · exact Or.inl hstuck
    · rcases readParts_name hname.2 pseudo_ident (ident_of_spells htext hrest) h with
        hstuck | ⟨-, h⟩
      · exact Or.inl hstuck
      · exact ih h

end Parts

/-! ### A compound -/

section Compounds

variable {compound : Compound Utf16} {found : ReadCompound} {last : Bool} {word rest left : Utf16}

theorem matchElement_eq {text head : Utf16} (h : matchElement text = some head) :
    head = text.takeWhile fun u ↦ isLetterUnit u || isDigitUnit u := by
  unfold matchElement at h
  split at h
  · exact (Option.some.inj h).symm
  · cases h

variable {u : UInt16}

theorem matchElement_none (text : Utf16) (h : isLetterUnit u = false) :
    matchElement (u :: text) = none :=
  if_neg fun hletter ↦ by
    rw [List.head?_cons, Option.any_some, h] at hletter
    cases hletter

theorem tag_ident (u : UInt16) (h : (isLetterUnit u || isDigitUnit u) = true) :
    isIdentUnit u = true := by
  rcases Bool.or_eq_true _ _ ▸ h with h | h
  · exact isIdentUnit_of_letter h
  · exact isIdentUnit_of_digit h

/-- What is read of a compound whose parts were read. -/
theorem readCompound_result {element : Option Utf16} {any : Bool} {skip : ℕ} {text : Utf16}
    (h : (do
      let (classes, last, rest) ← readParts [] any false skip text
      Except.ok ((⟨element, classes⟩ : ReadCompound), last, rest)) = .ok (found, last, left)) :
    found.element = element ∧
      readParts [] any false skip text = .ok (found.classes, last, left) := by
  cases hread : readParts [] any false skip text with
  | error =>
    rw [hread] at h
    cases h
  | ok result =>
    obtain ⟨classes, ended, after⟩ := result
    rw [hread] at h
    obtain ⟨rfl, rfl, rfl⟩ :
        (⟨element, classes⟩ : ReadCompound) = found ∧ ended = last ∧ after = left := by
      simpa [bind, Except.bind] using h
    exact ⟨rfl, rfl⟩

theorem readCompound_of_spells (hword : compound.Spells word) (hrest : Apart rest)
    (h : readCompound (word ++ rest) = .ok (found, last, left)) :
    Stuck left ∨ found = kept compound ∧ left = rest := by
  obtain ⟨tag, parts, rfl, hne, htag, hparts⟩ := hword
  rcases htag with ⟨rfl, hnone⟩ | ⟨htag, hsome⟩
  · -- No type: the text begins with a dot or a colon.
    have hmatch : matchElement (parts ++ rest) = none := by
      cases parts with
      | nil => exact absurd rfl hne
      | cons u =>
        refine matchElement_none _ ?_
        rcases head_of_spells hparts u rfl with rfl | rfl <;> decide
    rw [List.nil_append, readCompound, hmatch] at h
    obtain ⟨helement, hread⟩ := readCompound_result h
    rcases readParts_of_spells hparts hrest hread with hstuck | ⟨hclasses, hleft⟩
    · exact Or.inl hstuck
    · refine Or.inr ⟨?_, hleft⟩
      rw [kept, hnone, ← helement, ← List.nil_append compound.classes, ← hclasses]
  · rw [List.append_assoc, readCompound] at h
    cases hmatch : matchElement (tag ++ (parts ++ rest)) with
    | none =>
      rw [hmatch] at h
      obtain ⟨-, hread⟩ := readCompound_result h
      cases tag with
      | nil => exact absurd rfl htag.ne_nil
      | cons u =>
        have hu := htag.2 u List.mem_cons_self
        have hany := readParts_none (by
          rintro rfl
          cases hu) (by
          rintro rfl
          cases hu) hread
        exact absurd hany.1 Bool.false_ne_true
    | some =>
      rw [hmatch] at h
      simp only at h
      split at h
      · cases h
      · obtain ⟨helement, hread⟩ := readCompound_result h
        have hhead := matchElement_eq hmatch
        rw [hhead] at hread
        rcases readParts_name htag.2 tag_ident (ident_of_spells hparts hrest) hread with
          hstuck | ⟨htaken, hread⟩
        · exact Or.inl hstuck
        · rcases readParts_of_spells hparts hrest hread with hstuck | ⟨hclasses, hleft⟩
          · exact Or.inl hstuck
          · refine Or.inr ⟨?_, hleft⟩
            rw [htaken] at hhead
            rw [kept, hsome, ← hhead, ← helement, ← List.nil_append compound.classes, ← hclasses]

/-! ### Combinators -/

variable {padding text : Utf16}

theorem dropWhile_space (hpadding : AllSpace padding)
    (htext : ∀ u ∈ text.head?, isCssSpace u = false) :
    (padding ++ text).dropWhile isCssSpace = text := by
  refine dropWhile_padding hpadding ?_
  cases text with
  | nil => rfl
  | cons u => exact htext u rfl

/-- What begins a compound is not white space, nor the sign of a combinator. -/
theorem head_of_compound (hword : compound.Spells word) :
    ∃ u tail, word = u :: tail ∧ isPartUnit u = true := by
  obtain ⟨tag, parts, rfl, hne, htag, hparts⟩ := hword
  rcases htag with ⟨rfl, -⟩ | ⟨htag, -⟩
  · cases parts with
    | nil => exact absurd rfl hne
    | cons u parts =>
      refine ⟨u, parts, rfl, ?_⟩
      rcases head_of_spells hparts u rfl with rfl | rfl <;> decide
  · cases tag with
    | nil => exact absurd rfl htag.ne_nil
    | cons u tag =>
      exact ⟨u, tag ++ parts, rfl, isPartUnit_of_ident (htag.2 u List.mem_cons_self)⟩

theorem space_of_part (h : isPartUnit u = true) : isCssSpace u = false := by
  by_contra hspace
  rw [not_isPartUnit_of_space (by simpa using hspace)] at h
  cases h

theorem matchCombinator_stuck (h : Stuck left) : matchCombinator left = none := by
  obtain ⟨u, hu, hpart⟩ := h
  cases left with
  | nil => exact absurd hu (by simp)
  | cons v left =>
    obtain rfl : v = u := Option.some.inj hu
    have hspace := space_of_part hpart
    have hsigns : ¬(v = 0x3E ∨ v = 0x2B ∨ v = 0x7E) := by
      rintro (rfl | rfl | rfl) <;> cases hpart
    have hdrop : (v :: left).dropWhile isCssSpace = v :: left :=
      List.dropWhile_cons_of_neg (by rw [hspace]; exact Bool.false_ne_true)
    rw [matchCombinator, hdrop]
    simp only [if_neg hsigns, List.head?_cons, Option.any_some, hspace, Bool.false_eq_true,
      ↓reduceIte]

theorem matchCombinator_sign {sign : UInt16} {before after text : Utf16}
    (hsign : sign = 0x3E ∨ sign = 0x2B ∨ sign = 0x7E) (hbefore : AllSpace before)
    (hafter : AllSpace after) (htext : ∀ u ∈ text.head?, isCssSpace u = false) :
    matchCombinator (before ++ sign :: (after ++ text)) = some text := by
  have hspace : isCssSpace sign = false := by rcases hsign with rfl | rfl | rfl <;> decide
  have hdrop : (before ++ sign :: (after ++ text)).dropWhile isCssSpace =
      sign :: (after ++ text) := by
    refine dropWhile_space hbefore fun u hu ↦ ?_
    obtain rfl : sign = u := Option.some.inj hu
    exact hspace
  rw [matchCombinator, hdrop]
  simp only [if_pos hsign, dropWhile_space hafter htext]

theorem matchCombinator_spaces {joint text : Utf16} (hjoint : AllSpace joint)
    (hne : joint ≠ []) (hu : isPartUnit u = true) :
    matchCombinator (joint ++ u :: text) = some (u :: text) := by
  have hspace := space_of_part hu
  have hdrop : (joint ++ u :: text).dropWhile isCssSpace = u :: text := by
    refine dropWhile_space hjoint fun v hv ↦ ?_
    obtain rfl : u = v := Option.some.inj hv
    exact hspace
  have hsigns : ¬(u = 0x3E ∨ u = 0x2B ∨ u = 0x7E) := by
    rintro (rfl | rfl | rfl) <;> cases hu
  cases joint with
  | nil => exact absurd rfl hne
  | cons v =>
    rw [matchCombinator, hdrop]
    simp only [if_neg hsigns, List.cons_append, List.head?_cons, Option.any_some,
      hjoint v List.mem_cons_self, ↓reduceIte]

theorem apart_of_space (hpadding : AllSpace padding) (hne : padding ≠ []) :
    Apart (padding ++ text) := by
  intro u hu
  cases padding with
  | nil => exact absurd rfl hne
  | cons v =>
    obtain rfl : v = u := Option.some.inj hu
    exact not_isPartUnit_of_space (hpadding v List.mem_cons_self)

theorem apart_of_sign {sign : UInt16} {before text : Utf16}
    (hsign : sign = 0x3E ∨ sign = 0x2B ∨ sign = 0x7E) (hbefore : AllSpace before) :
    Apart (before ++ sign :: text) := by
  by_cases hne : before = []
  · subst hne
    intro u hu
    obtain rfl : sign = u := Option.some.inj hu
    rcases hsign with rfl | rfl | rfl <;> decide
  · exact apart_of_space hbefore hne

/-- What joins two compounds ends the left one, and is taken whole. -/
theorem matchCombinator_of_spells {combinator : Combinator} {joint : Utf16}
    (hjoint : combinator.Spells joint) (hword : compound.Spells word) :
    matchCombinator (joint ++ (word ++ rest)) = some (word ++ rest) ∧
      Apart (joint ++ (word ++ rest)) ∧ joint ≠ [] := by
  obtain ⟨u, tail, rfl, hu⟩ := head_of_compound hword
  have hhead : ∀ v ∈ (u :: tail ++ rest).head?, isCssSpace v = false := by
    intro v hv
    obtain rfl : u = v := Option.some.inj hv
    exact space_of_part hu
  have hsigned : ∀ {sign : UInt16}, (sign = 0x3E ∨ sign = 0x2B ∨ sign = 0x7E) →
      (∃ before after, AllSpace before ∧ AllSpace after ∧ joint = before ++ sign :: after) →
        matchCombinator (joint ++ (u :: tail ++ rest)) = some (u :: tail ++ rest) ∧
          Apart (joint ++ (u :: tail ++ rest)) ∧ joint ≠ [] := by
    rintro sign hsign ⟨before, after, hbefore, hafter, rfl⟩
    rw [List.append_assoc, List.cons_append]
    exact ⟨matchCombinator_sign hsign hbefore hafter hhead, apart_of_sign hsign hbefore,
      List.append_ne_nil_of_right_ne_nil _ (List.cons_ne_nil _ _)⟩
  cases combinator with
  | descendant =>
    obtain ⟨hne, hspace⟩ := hjoint
    exact ⟨matchCombinator_spaces hspace hne hu, apart_of_space hspace hne, hne⟩
  | child => exact hsigned (Or.inl rfl) hjoint
  | nextSibling => exact hsigned (Or.inr (Or.inl rfl)) hjoint
  | subsequentSibling => exact hsigned (Or.inr (Or.inr rfl)) hjoint

/-! ### A selector -/

theorem readCompounds_skip (compounds : List ReadCompound) (taken rest : Utf16) :
    readCompounds compounds taken.length (taken ++ rest) = readCompounds compounds 0 rest := by
  induction taken with
  | nil => rfl
  | cons _ _ ih =>
    rw [List.cons_append, List.length_cons, readCompounds, if_pos (Nat.succ_pos _),
      Nat.add_sub_cancel]
    exact ih

/-- A compound is read and the loop goes on with what is behind it. -/
theorem readCompounds_step {compounds compounds' : List ReadCompound}
    (hword : compound.Spells word) (hrest : Apart rest)
    (h : readCompounds compounds 0 (word ++ rest) = .ok compounds') :
    rest = [] ∧ compounds' = compounds ++ [kept compound] ∨
      rest ≠ [] ∧ ∀ joint text, rest = joint ++ text → matchCombinator rest = some text →
        readCompounds (compounds ++ [kept compound]) 0 text = .ok compounds' := by
  obtain ⟨u, tail, rfl, hu⟩ := head_of_compound hword
  rw [List.cons_append, readCompounds, if_neg (lt_irrefl _)] at h
  cases hread : readCompound (u :: (tail ++ rest)) with
  | error =>
    rw [hread] at h
    cases h
  | ok result =>
    obtain ⟨found, last, left⟩ := result
    rw [hread] at h
    simp only at h
    rcases readCompound_of_spells hword hrest hread with hstuck | ⟨rfl, rfl⟩
    · cases left with
      | nil =>
        obtain ⟨v, hv, -⟩ := hstuck
        exact absurd hv (by simp)
      | cons =>
        rw [matchCombinator_stuck hstuck] at h
        simp only at h
        split at h <;> cases h
    · cases left with
      | nil => exact Or.inl ⟨rfl, (Except.ok.inj h).symm⟩
      | cons v left =>
        simp only at h
        refine Or.inr ⟨List.cons_ne_nil _ _, fun joint text hsplit hmatch ↦ ?_⟩
        rw [hmatch] at h
        split at h
        · cases h
        · cases text with
          | nil => cases h
          | cons w next =>
            simp only at h
            have hlength : (tail ++ v :: left).length - (w :: next).length =
                (tail ++ joint).length := by
              rw [hsplit]
              simp only [List.length_append]
              omega
            rw [hlength, hsplit, ← List.append_assoc, readCompounds_skip] at h
            exact h

variable {next : List (Combinator × Compound Utf16)}

theorem readCompounds_of_spells :
    ∀ {compound : Compound Utf16} {word rest : Utf16} {compounds compounds' : List ReadCompound},
      compound.Spells word → SpellsNext next rest →
        readCompounds compounds 0 (word ++ rest) = .ok compounds' →
          compounds' = compounds ++ (compound :: next.map Prod.snd).map kept := by
  induction next with
  | nil =>
    intro compound word rest compounds compounds' hword hnext h
    obtain rfl : rest = [] := hnext
    rcases readCompounds_step hword (fun u hu ↦ absurd hu (by simp)) h with ⟨-, h⟩ | ⟨hne, -⟩
    · exact h
    · exact absurd rfl hne
  | cons head _ ih =>
    obtain ⟨combinator, other⟩ := head
    intro compound word rest compounds compounds' hword hnext h
    obtain ⟨joint, word', rest', rfl, hjoint, hother, hnext⟩ := hnext
    obtain ⟨hmatch, hapart, hne⟩ := @matchCombinator_of_spells other word' rest' _ _ hjoint hother
    rcases readCompounds_step hword hapart h with ⟨hnil, -⟩ | ⟨-, hstep⟩
    · exact absurd (List.append_eq_nil_iff.mp hnil).1 hne
    · have hread := hstep joint (word' ++ rest') rfl hmatch
      rw [ih hother hnext hread, List.append_assoc]
      rfl

/-- A text that ends in a unit of a name. -/
def EndsIdent (text : Utf16) : Prop := ∃ start u, text = start ++ [u] ∧ isIdentUnit u = true

theorem EndsIdent.append (start : Utf16) {text : Utf16} (h : EndsIdent text) :
    EndsIdent (start ++ text) := by
  obtain ⟨start', u, rfl, hu⟩ := h
  exact ⟨start ++ start', u, (List.append_assoc _ _ _).symm, hu⟩

theorem endsIdent_of_ident {name : Utf16} (h : IsIdent name) : EndsIdent name := by
  have hlast := List.dropLast_append_getLast h.ne_nil
  exact ⟨_, _, hlast.symm, h.2 _ (List.getLast_mem h.ne_nil)⟩

theorem endsIdent_of_parts {names pseudoClasses : List Utf16} {pseudoElement : Option Utf16}
    {parts : Utf16} (h : SpellsParts names pseudoClasses pseudoElement parts) :
    parts = [] ∨ EndsIdent parts := by
  have hcons : ∀ {u : UInt16} {name text : Utf16}, IsIdent name → (text = [] ∨ EndsIdent text) →
      EndsIdent (u :: (name ++ text)) := by
    intro u name text hname htext
    rw [← List.singleton_append, ← List.append_assoc]
    rcases htext with rfl | htext
    · rw [List.append_nil]
      exact (endsIdent_of_ident hname).append _
    · exact htext.append _
  induction h with
  | nothing => exact Or.inl rfl
  | pseudoElement _ h =>
    exact Or.inr ((endsIdent_of_ident h).append [0x3A, 0x3A])
  | classPart _ h _ _ _ _ _ ih => exact Or.inr (hcons h ih)
  | pseudoClass _ h _ _ _ _ _ ih =>
    exact Or.inr (hcons h ih)

theorem endsIdent_of_compound (hword : compound.Spells word) : EndsIdent word := by
  obtain ⟨tag, parts, rfl, hne, htag, hparts⟩ := hword
  rcases endsIdent_of_parts hparts with rfl | hends
  · rcases htag with ⟨rfl, -⟩ | ⟨htag, -⟩
    · exact absurd rfl hne
    · rw [List.append_nil]
      exact endsIdent_of_ident htag
  · exact hends.append tag

theorem endsIdent_of_next :
    ∀ {rest : Utf16}, SpellsNext next rest → rest = [] ∨ EndsIdent rest := by
  induction next with
  | nil => exact fun h ↦ Or.inl h
  | cons head _ ih =>
    obtain ⟨combinator, other⟩ := head
    rintro rest ⟨joint, word', rest', rfl, -, hother, hnext⟩
    refine Or.inr (EndsIdent.append joint ?_)
    rcases ih hnext with rfl | hends
    · rw [List.append_nil]
      exact endsIdent_of_compound hother
    · exact hends.append word'

end Compounds

/-- What is read of a text is what is kept of the selector that it spells. -/
theorem readSelector_of_spells {selector : Selector Utf16} {raw : Utf16}
    {compounds : List ReadCompound} (hraw : selector.Spells raw)
    (h : readSelector raw = .ok compounds) : compounds = selector.compounds.map kept := by
  obtain ⟨before, word, rest, after, hbefore, hafter, rfl, hword, hnext⟩ := hraw
  obtain ⟨u, tail, rfl, hu⟩ := head_of_compound hword
  have hends : EndsIdent (u :: tail ++ rest) := by
    rcases endsIdent_of_next hnext with rfl | hends
    · rw [List.append_nil]
      exact endsIdent_of_compound hword
    · exact hends.append _
  have htrim : trimBy isCssSpace (before ++ (u :: tail ++ rest ++ after)) = u :: tail ++ rest := by
    refine trimBy_padded hbefore hafter (space_of_part hu) ?_
    obtain ⟨start, v, hsplit, hv⟩ := hends
    rw [hsplit, List.getLast?_append, List.getLast?_singleton]
    exact space_of_part (isPartUnit_of_ident hv)
  rw [readSelector] at h
  split at h
  · cases h
  · rw [htrim] at h
    exact readCompounds_of_spells hword hnext h

end Odudu.DomainTheme.Stylesheets
