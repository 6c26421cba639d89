import Mathlib.Logic.Basic

/-!
# Families of one-time tokens

Tokens that are spent once, each spent token with at most one successor in its family.  A
`Ledger` is what is on record of each token; a `Move` is what one commit may do to it:
nothing, open a family with its first token, spend a token, or rotate one into the next.
`Ledger.InOrder` is kept by every move, and gives a family at most one token to spend;
a move opens only families that may be opened (`Move.known`).
-/

set_option autoImplicit false

namespace Odudu.OneTimeTokens

/-- What is on record of a token. -/
structure Entry (Token Family : Type) where
  family : Family
  spent : Bool
  successor : Option Token

/-- What is on record of every token issued. -/
abbrev Ledger (Token Family : Type) : Type := Token → Option (Entry Token Family)

variable {Token Family : Type} {L L' : Ledger Token Family}

/-- The record of a token that has just been issued. -/
def Entry.fresh (family : Family) : Entry Token Family := ⟨family, false, none⟩

/-- What one commit may do to a ledger, where the families that may be opened are `Known`. -/
inductive Move (Known : Family → Prop) (L L' : Ledger Token Family) : Prop where
  | keep (hkeep : ∀ t, L' t = L t)
  | openFamily {t : Token} {f : Family} (hknown : Known f) (hfree : L t = none)
      (hempty : ∀ t' e, L t' = some e → e.family ≠ f) (hnew : L' t = some (.fresh f))
      (hrest : ∀ t', t' ≠ t → L' t' = L t')
  | spend {t : Token} {e : Entry Token Family} (hheld : L t = some e)
      (hunspent : e.spent = false) (hspent : L' t = some { e with spent := true })
      (hrest : ∀ t', t' ≠ t → L' t' = L t')
  | rotate {t t' : Token} {e : Entry Token Family} (hheld : L t = some e)
      (hunspent : e.spent = false) (hfree : L t' = none)
      (hspent : L' t = some { e with spent := true, successor := some t' })
      (hnew : L' t' = some (.fresh e.family))
      (hrest : ∀ t'', t'' ≠ t → t'' ≠ t' → L' t'' = L t'')

/-- A family has one token to spend at most, and a successor follows one spent token of
its own family. -/
structure Ledger.InOrder (L : Ledger Token Family) : Prop where
  oneUnspent : ∀ {t t' e e'}, L t = some e → L t' = some e' → e.family = e'.family →
    e.spent = false → e'.spent = false → t = t'
  succeeded : ∀ {t t' e}, L t = some e → e.successor = some t' →
    e.spent = true ∧ ∃ e', L t' = some e' ∧ e'.family = e.family
  onePredecessor : ∀ {t₁ t₂ t' e₁ e₂}, L t₁ = some e₁ → L t₂ = some e₂ →
    e₁.successor = some t' → e₂.successor = some t' → t₁ = t₂

theorem Ledger.inOrder_of_empty (h : ∀ t, L t = none) : L.InOrder where
  oneUnspent := by
    intro t t' e e' hheld
    simp [h] at hheld
  succeeded := by
    intro t t' e hheld
    simp [h] at hheld
  onePredecessor := by
    intro t₁ t₂ t' e₁ e₂ hheld
    simp [h] at hheld

namespace Ledger.InOrder

variable (hL : L.InOrder)

include hL

/-- Opening an empty family keeps the order. -/
theorem openFamily {t : Token} {f : Family} (hfree : L t = none)
    (hempty : ∀ t' e, L t' = some e → e.family ≠ f) (hnew : L' t = some (.fresh f))
    (hrest : ∀ t', t' ≠ t → L' t' = L t') : L'.InOrder where
  oneUnspent := by
    intro t₁ t₂ e₁ e₂ h₁ h₂ hfamily hun₁ hun₂
    have hold := @hL.oneUnspent t₁ t₂ e₁ e₂
    by_cases ht₁ : t₁ = t <;> by_cases ht₂ : t₂ = t <;> grind [Entry.fresh]
  succeeded := by
    intro t₁ t₂ e hheld hsucc
    have hold := @hL.succeeded t₁ t₂ e
    by_cases ht₁ : t₁ = t <;> by_cases ht₂ : t₂ = t <;> grind [Entry.fresh]
  onePredecessor := by
    intro t₁ t₂ t' e₁ e₂ h₁ h₂ hsucc₁ hsucc₂
    have hold := @hL.onePredecessor t₁ t₂ t' e₁ e₂
    by_cases ht₁ : t₁ = t <;> by_cases ht₂ : t₂ = t <;> grind [Entry.fresh]

variable {e : Entry Token Family}

/-- Spending a token keeps the order. -/
theorem spend {t : Token} (hheld : L t = some e)
    (hspent : L' t = some { e with spent := true }) (hrest : ∀ t', t' ≠ t → L' t' = L t') :
    L'.InOrder where
  oneUnspent := by
    intro t₁ t₂ e₁ e₂ h₁ h₂ hfamily hun₁ hun₂
    have hold := @hL.oneUnspent t₁ t₂ e₁ e₂
    by_cases ht₁ : t₁ = t <;> by_cases ht₂ : t₂ = t <;> grind
  succeeded := by
    intro t₁ t₂ e₁ hheld₁ hsucc
    have hold := @hL.succeeded t₁ t₂ e₁
    have hspending := @hL.succeeded t t₂ e hheld
    by_cases ht₁ : t₁ = t <;> by_cases ht₂ : t₂ = t <;> grind
  onePredecessor := by
    intro t₁ t₂ t' e₁ e₂ h₁ h₂ hsucc₁ hsucc₂
    have hold := @hL.onePredecessor t₁ t₂ t'
    by_cases ht₁ : t₁ = t <;> by_cases ht₂ : t₂ = t <;> grind

/-- Rotating a token into a new one of its family keeps the order. -/
theorem rotate {t t' : Token} (hheld : L t = some e)
    (hunspent : e.spent = false) (hfree : L t' = none)
    (hspent : L' t = some { e with spent := true, successor := some t' })
    (hnew : L' t' = some (.fresh e.family))
    (hrest : ∀ t'', t'' ≠ t → t'' ≠ t' → L' t'' = L t'') : L'.InOrder where
  oneUnspent := by
    intro t₁ t₂ e₁ e₂ h₁ h₂ hfamily hun₁ hun₂
    -- A third unspent token of the family would be one beside the token being spent.
    have hold := @hL.oneUnspent t₁ t₂ e₁ e₂
    have hold₁ := @hL.oneUnspent t₁ t e₁ e
    have hold₂ := @hL.oneUnspent t₂ t e₂ e
    by_cases ht₁ : t₁ = t <;> by_cases ht₁' : t₁ = t' <;> by_cases ht₂ : t₂ = t <;>
      by_cases ht₂' : t₂ = t' <;> grind [Entry.fresh]
  succeeded := by
    intro t₁ t₂ e₁ hheld₁ hsucc
    have hold := @hL.succeeded t₁ t₂ e₁
    by_cases ht₁ : t₁ = t <;> by_cases ht₁' : t₁ = t' <;> by_cases ht₂ : t₂ = t <;>
      by_cases ht₂' : t₂ = t' <;> grind [Entry.fresh]
  onePredecessor := by
    intro t₁ t₂ t₃ e₁ e₂ h₁ h₂ hsucc₁ hsucc₂
    have hold := @hL.onePredecessor t₁ t₂ t₃ e₁ e₂
    -- The new token was nobody's successor: it was not on record.
    have hsucceeded₁ := @hL.succeeded t₁ t₃ e₁
    have hsucceeded₂ := @hL.succeeded t₂ t₃ e₂
    by_cases ht₁ : t₁ = t <;> by_cases ht₁' : t₁ = t' <;> by_cases ht₂ : t₂ = t <;>
      by_cases ht₂' : t₂ = t' <;> grind [Entry.fresh]

theorem move {Known : Family → Prop} (h : Move Known L L') : L'.InOrder := by
  cases h with
  | keep hkeep =>
    obtain rfl : L' = L := funext hkeep
    exact hL
  | openFamily _ hfree hempty hnew hrest => exact hL.openFamily hfree hempty hnew hrest
  | spend hheld _ hspent hrest => exact hL.spend hheld hspent hrest
  | rotate hheld hunspent hfree hspent hnew hrest =>
    exact hL.rotate hheld hunspent hfree hspent hnew hrest

end Ledger.InOrder

/-- The families on record are known after a move when they were known before it. -/
theorem Move.known {Known : Family → Prop} (h : Move Known L L')
    (hbefore : ∀ t e, L t = some e → Known e.family) :
    ∀ t e, L' t = some e → Known e.family := by
  intro t e' hnow
  cases h with
  | keep hkeep => exact hbefore t e' ((hkeep t).symm.trans hnow)
  | @openFamily t₁ f hknown hfree hempty hnew hrest =>
    by_cases ht : t = t₁
    · subst ht
      obtain rfl : Entry.fresh f = e' := Option.some.inj (hnew.symm.trans hnow)
      exact hknown
    · exact hbefore t e' ((hrest t ht).symm.trans hnow)
  | @spend t₁ e hheld hunspent hspent hrest =>
    by_cases ht : t = t₁
    · subst ht
      obtain rfl := Option.some.inj (hspent.symm.trans hnow)
      exact hbefore t e hheld
    · exact hbefore t e' ((hrest t ht).symm.trans hnow)
  | @rotate t₁ t₂ e hheld hunspent hfree hspent hnew hrest =>
    by_cases ht : t = t₁
    · subst ht
      obtain rfl := Option.some.inj (hspent.symm.trans hnow)
      exact hbefore t e hheld
    · by_cases ht₂ : t = t₂
      · subst ht₂
        obtain rfl := Option.some.inj (hnew.symm.trans hnow)
        exact hbefore t₁ e hheld
      · exact hbefore t e' ((hrest t ht ht₂).symm.trans hnow)

end Odudu.OneTimeTokens
