import Odudu.DomainTheme.Stylesheet

/-!
# Accepted stylesheets

What a stylesheet with nothing wrong is made of.  A step of the check `Judges` what it walks
over: it takes no issue away, and it adds none only where what it judges is fine.  Every rule of
an accepted stylesheet is fine, and so is what it is made of (`rule_of_accepted`).
-/

set_option autoImplicit false

namespace Odudu.DomainTheme.Stylesheets

open Texts Styles

/-! ### Judging -/

def Silent (progress : Progress) : Prop := progress.issues = [] ∧ progress.stopped = false

structure Judges (step : Progress → Progress) (Fine : Prop) : Prop where
  grows : ∀ progress, progress.issues ≠ [] → (step progress).issues ≠ []
  fine : ∀ progress, Silent progress → (step progress).issues = [] →
    Silent (step progress) ∧ Fine

namespace Judges

variable {step step' : Progress → Progress} {Fine Fine' : Prop}

theorem mono (h : Judges step Fine) (himp : Fine → Fine') : Judges step Fine' where
  grows := h.grows
  fine := fun progress hsilent hnone ↦ by
    obtain ⟨hafter, hfine⟩ := h.fine progress hsilent hnone
    exact ⟨hafter, himp hfine⟩

theorem nothing : Judges id True where
  grows := fun _ h ↦ h
  fine := fun _ hsilent _ ↦ ⟨hsilent, trivial⟩

theorem andThen (h : Judges step Fine) (h' : Judges step' Fine') :
    Judges (fun progress ↦ step' (step progress)) (Fine ∧ Fine') where
  grows := fun progress hsome ↦ h'.grows _ (h.grows progress hsome)
  fine := fun progress hsilent hnone ↦ by
    have hbetween : (step progress).issues = [] := by
      by_contra hsome
      exact h'.grows _ hsome hnone
    obtain ⟨hsilent', hfine⟩ := h.fine progress hsilent hbetween
    obtain ⟨hsilent'', hfine'⟩ := h'.fine _ hsilent' hnone
    exact ⟨hsilent'', hfine, hfine'⟩

theorem add (code : StylesheetIssueCode) (detail : Utf16) (start : Start) :
    Judges (fun progress ↦ progress.add code detail start) False where
  grows := fun progress hsome ↦ by
    unfold Progress.add
    split
    · exact hsome
    · split
      · exact List.append_ne_nil_of_left_ne_nil hsome _
      · exact List.append_ne_nil_of_left_ne_nil hsome _
  fine := fun progress hsilent hnone ↦ by
    unfold Progress.add at hnone
    rw [if_neg (by rw [hsilent.2]; exact Bool.false_ne_true)] at hnone
    split at hnone
    · exact absurd hnone (List.append_ne_nil_of_right_ne_nil _ (List.cons_ne_nil _ _))
    · exact absurd hnone (List.append_ne_nil_of_right_ne_nil _ (List.cons_ne_nil _ _))

theorem addAndStop (code : StylesheetIssueCode) (detail : Utf16) (start : Start) :
    Judges (fun progress ↦ { progress.add code detail start with stopped := true }) False where
  grows := (add code detail start).grows
  fine := fun progress hsilent hnone ↦ ((add code detail start).fine progress hsilent hnone).2.elim

theorem guarded (h : Judges step Fine) :
    Judges (fun progress ↦ if progress.stopped then progress else step progress) Fine where
  grows := fun progress hsome ↦ by
    split
    · exact hsome
    · exact h.grows progress hsome
  fine := fun progress hsilent hnone ↦ by
    have hgoes : ¬progress.stopped = true := by
      rw [hsilent.2]
      exact Bool.false_ne_true
    simp only [if_neg hgoes] at hnone ⊢
    exact h.fine progress hsilent hnone

theorem forAll {α : Type} {f : α → Progress → Progress} {Good : α → Prop} (items : List α)
    (h : ∀ item ∈ items, Judges (f item) (Good item)) :
    Judges (fun progress ↦ items.foldl (fun progress item ↦ f item progress) progress)
      (∀ item ∈ items, Good item) := by
  induction items with
  | nil => exact nothing.mono fun _ item hitem ↦ absurd hitem List.not_mem_nil
  | cons item _ ih =>
    have hrest := ih fun other hother ↦ h other (List.mem_cons_of_mem _ hother)
    refine ((h item List.mem_cons_self).andThen hrest).mono ?_
    rintro ⟨hitem, hitems⟩
    exact List.forall_mem_cons.mpr ⟨hitem, hitems⟩

theorem untilStopped {α : Type} {f : α → Progress → Progress} {Good : α → Prop} (items : List α)
    (h : ∀ item ∈ items, Judges (f item) (Good item)) :
    Judges (untilStopped f items) (∀ item ∈ items, Good item) :=
  @forAll _ (fun item progress ↦ if progress.stopped then progress else f item progress) Good items
    fun item hitem ↦ (h item hitem).guarded

theorem addAll (problems : List SheetProblem) (start : Start) :
    Judges (fun progress ↦ progress.addAll problems start) (problems = []) := by
  have hadds := @forAll SheetProblem
    (fun problem progress ↦ progress.add problem.code problem.detail start) (fun _ ↦ False)
    problems fun problem _ ↦ add problem.code problem.detail start
  exact hadds.mono List.eq_nil_iff_forall_not_mem.mpr

theorem counting {count : Progress → Progress} (h : Judges step Fine)
    (hcount : ∀ progress, (count progress).issues = progress.issues ∧
      (count progress).stopped = progress.stopped) :
    Judges (fun progress ↦ step (count progress)) Fine where
  grows := fun progress hsome ↦ h.grows _ (by rwa [(hcount progress).1])
  fine := fun progress hsilent hnone ↦ by
    refine h.fine _ ⟨?_, ?_⟩ hnone
    · rw [(hcount progress).1, hsilent.1]
    · rw [(hcount progress).2, hsilent.2]

theorem either {p : Progress → Prop} [DecidablePred p] (h : Judges step Fine)
    (h' : Judges step' Fine) :
    Judges (fun progress ↦ if p progress then step progress else step' progress) Fine where
  grows := fun progress hsome ↦ by
    split
    · exact h.grows progress hsome
    · exact h'.grows progress hsome
  fine := fun progress hsilent hnone ↦ by
    split
    · rename_i hp
      rw [if_pos hp] at hnone
      exact h.fine progress hsilent hnone
    · rename_i hp
      rw [if_neg hp] at hnone
      exact h'.fine progress hsilent hnone

end Judges

/-! ### Rules -/

/-- A rule with what is in its block. -/
structure Rule where
  selector : Utf16
  nodes : List CssNode

mutual

/-- Every rule of a node, those in another among them. -/
def CssNode.rules : CssNode → List Rule
  | .decl _ => []
  | .rule selector nodes _ => ⟨selector, nodes⟩ :: rulesOf nodes
  | .atRule _ _ _ nodes _ => rulesInBlock nodes
  | .comment => []

def rulesOf : List CssNode → List Rule
  | [] => []
  | node :: nodes => node.rules ++ rulesOf nodes

def rulesInBlock : Option (List CssNode) → List Rule
  | none => []
  | some nodes => rulesOf nodes

end

theorem mem_rulesOf {nodes : List CssNode} {rule : Rule} :
    rule ∈ rulesOf nodes ↔ ∃ node ∈ nodes, rule ∈ node.rules := by
  induction nodes with
  | nil => simp [rulesOf]
  | cons _ _ ih => simp [rulesOf, ih]

def Rule.compounds (rule : Rule) : List (List ReadCompound) := (readSelectors rule.selector).1

/-- Whether the parts that a rule matches may be hidden. -/
def Rule.mayHide (rule : Rule) : Bool := mayHideRule rule.compounds

section Accepted

variable {platform : CssPlatform} {isAssetUrl : Option (Utf16 → Bool)}

variable (platform isAssetUrl) in
def ChildFine (mayHide : Bool) (scheme : Scheme) : CssNode → Prop
  | .decl decl => declarationProblems platform isAssetUrl mayHide scheme decl = []
  | .rule _ _ _ => False
  | .atRule _ _ _ _ _ => False
  | .comment => True

variable (platform isAssetUrl) in
structure RuleFine (scheme : Scheme) (rule : Rule) : Prop where
  selectors : (readSelectors rule.selector).2 = []
  children : ∀ child ∈ rule.nodes, ChildFine platform isAssetUrl rule.mayHide scheme child

variable (platform isAssetUrl) in
def InMediaFine (scheme : Scheme) : CssNode → Prop
  | .decl _ => False
  | .rule selector nodes _ => RuleFine platform isAssetUrl scheme ⟨selector, nodes⟩
  | .atRule _ _ _ _ _ => False
  | .comment => True

variable (platform isAssetUrl) in
def RootFine : CssNode → Prop
  | .decl _ => False
  | .rule selector nodes _ => RuleFine platform isAssetUrl .any ⟨selector, nodes⟩
  | .atRule _ _ _ nodes _ =>
    ∃ inside scheme, nodes = some inside ∧
      ∀ node ∈ inside, InMediaFine platform isAssetUrl scheme node
  | .comment => True

theorem judges_checkDeclaration (mayHide : Bool) (scheme : Scheme) (decl : Declaration) :
    Judges (checkDeclaration platform isAssetUrl mayHide scheme decl)
      (declarationProblems platform isAssetUrl mayHide scheme decl = []) := by
  have hstep : Judges (fun progress ↦ if progress.declarations > MAX_DECLARATIONS then
      { progress.add .tooManyDeclarations (moreThan MAX_DECLARATIONS) none with stopped := true }
      else progress.addAll (declarationProblems platform isAssetUrl mayHide scheme decl) decl.start)
      (declarationProblems platform isAssetUrl mayHide scheme decl = []) :=
    Judges.either ((Judges.addAndStop _ _ _).mono False.elim) (Judges.addAll _ _)
  exact @Judges.counting _ _ (fun progress ↦
    { progress with declarations := progress.declarations + 1 }) hstep fun progress ↦ ⟨rfl, rfl⟩

theorem judges_checkWhole (nodes : List CssNode) (scheme : Scheme) (ownsGround : Bool) :
    Judges (checkWhole platform nodes scheme ownsGround) True := by
  unfold checkWhole
  dsimp only
  split
  · split
    · exact (Judges.add _ _ _).mono False.elim
    · split
      · exact (Judges.add _ _ _).mono False.elim
      · exact Judges.nothing
  · exact Judges.nothing

theorem judges_checkChild (mayHide : Bool) (scheme : Scheme) (child : CssNode) :
    Judges (checkChild platform isAssetUrl mayHide scheme child)
      (ChildFine platform isAssetUrl mayHide scheme child) := by
  cases child with
  | decl decl => exact judges_checkDeclaration mayHide scheme decl
  | rule | atRule => exact Judges.add _ _ _
  | comment => exact Judges.nothing

theorem judges_checkRule (selector : Utf16) (nodes : List CssNode) (start : Start)
    (scheme : Scheme) :
    Judges (checkRule platform isAssetUrl selector nodes start scheme)
      (RuleFine platform isAssetUrl scheme ⟨selector, nodes⟩) := by
  have hwhole : ∀ compounds, Judges (fun progress ↦ if mayHideRule compounds then progress
      else checkWhole platform nodes scheme (ownsBackground compounds) progress) True := by
    intro compounds
    exact @Judges.either id _ _ (fun _ ↦ mayHideRule compounds = true) _ Judges.nothing
      (judges_checkWhole nodes scheme _)
  have hread := ((Judges.addAll (readSelectors selector).2 start).andThen
    (hwhole (readSelectors selector).1)).andThen (Judges.untilStopped nodes fun child _ ↦
      @judges_checkChild platform isAssetUrl (mayHideRule (readSelectors selector).1) scheme child)
  have hrule := hread.mono fun h ↦
    (⟨h.1.1, h.2⟩ : RuleFine platform isAssetUrl scheme ⟨selector, nodes⟩)
  have hstop := (Judges.addAndStop .tooManyRules (moreThan MAX_RULES) none).mono
    (@False.elim (RuleFine platform isAssetUrl scheme ⟨selector, nodes⟩))
  have hbounded := @Judges.either _ _ _ (fun progress ↦ progress.rules > MAX_RULES) _ hstop hrule
  exact @Judges.counting _ _ (fun progress ↦ { progress with rules := progress.rules + 1 })
    hbounded fun progress ↦ ⟨rfl, rfl⟩

theorem judges_visitInMedia (scheme : Scheme) (node : CssNode) :
    Judges (visitInMedia platform isAssetUrl scheme node)
      (InMediaFine platform isAssetUrl scheme node) := by
  cases node with
  | decl | atRule => exact Judges.add _ _ _
  | rule selector nodes start => exact judges_checkRule selector nodes start scheme
  | comment => exact Judges.nothing

theorem judges_visit (node : CssNode) :
    Judges (visit platform isAssetUrl node) (RootFine platform isAssetUrl node) := by
  cases node with
  | decl => exact Judges.add _ _ _
  | rule selector nodes start => exact judges_checkRule selector nodes start .any
  | atRule name params rawParams nodes start =>
    change Judges (checkAtRule platform isAssetUrl name params rawParams nodes start) _
    unfold checkAtRule
    split
    · exact (Judges.add _ _ _).mono False.elim
    · cases nodes with
      | none => exact (Judges.add _ _ _).mono False.elim
      | some nodes =>
        dsimp only
        split
        · exact (Judges.add _ _ _).mono False.elim
        · refine (Judges.untilStopped nodes fun node _ ↦
            judges_visitInMedia (schemeOf platform params) node).mono fun h ↦ ?_
          exact ⟨nodes, schemeOf platform params, rfl, h⟩
  | comment => exact Judges.nothing

/-! ### What is accepted -/

variable {scheme : Scheme}

theorem rules_of_childFine {mayHide : Bool} {child : CssNode}
    (h : ChildFine platform isAssetUrl mayHide scheme child) : child.rules = [] := by
  cases child with
  | decl | comment => rw [CssNode.rules]
  | rule | atRule => exact h.elim

theorem rules_of_fine {selector : Utf16} {nodes : List CssNode} {start : Start}
    (h : RuleFine platform isAssetUrl scheme ⟨selector, nodes⟩) :
    (CssNode.rule selector nodes start).rules = [⟨selector, nodes⟩] := by
  rw [CssNode.rules, List.cons.injEq]
  refine ⟨rfl, List.eq_nil_iff_forall_not_mem.mpr fun rule hrule ↦ ?_⟩
  obtain ⟨child, hchild, hrule⟩ := mem_rulesOf.mp hrule
  rw [rules_of_childFine (h.children child hchild)] at hrule
  exact List.not_mem_nil hrule

theorem rule_of_inMedia {node : CssNode}
    (h : InMediaFine platform isAssetUrl scheme node) :
    ∀ rule ∈ node.rules, RuleFine platform isAssetUrl scheme rule := by
  cases node with
  | decl | atRule => exact h.elim
  | rule =>
    rw [rules_of_fine h]
    exact List.forall_mem_singleton.mpr h
  | comment =>
    rw [CssNode.rules]
    exact fun rule hrule ↦ absurd hrule List.not_mem_nil

theorem rule_of_root {node : CssNode} (h : RootFine platform isAssetUrl node) :
    ∀ rule ∈ node.rules, ∃ scheme, RuleFine platform isAssetUrl scheme rule := by
  cases node with
  | decl => exact h.elim
  | rule =>
    rw [rules_of_fine h]
    exact List.forall_mem_singleton.mpr ⟨.any, h⟩
  | atRule =>
    obtain ⟨inside, scheme, rfl, h⟩ := h
    intro rule hrule
    rw [CssNode.rules, rulesInBlock, mem_rulesOf] at hrule
    obtain ⟨node, hnode, hrule⟩ := hrule
    exact ⟨scheme, rule_of_inMedia (h node hnode) rule hrule⟩
  | comment =>
    rw [CssNode.rules]
    exact fun rule hrule ↦ absurd hrule List.not_mem_nil

/-- The parser reads an accepted stylesheet, and every rule of it is fine. -/
theorem rule_of_accepted {parse : Utf16 → Except Unparsable (List CssNode)} {css : Utf16}
    (h : checkStylesheet platform isAssetUrl parse css = []) :
    ∃ root, parse css = .ok root ∧
      ∀ rule ∈ rulesOf root, ∃ scheme, RuleFine platform isAssetUrl scheme rule := by
  unfold checkStylesheet at h
  split at h
  · have hadd := (Judges.add .tooLarge ‹Utf16› none).fine Progress.empty ⟨rfl, rfl⟩ h
    exact hadd.2.elim
  · split at h
    · cases h
    · split at h
      · cases h
      · rename_i root hparse
        refine ⟨root, hparse, fun rule hrule ↦ ?_⟩
        obtain ⟨node, hnode, hrule⟩ := mem_rulesOf.mp hrule
        have hfine := ((Judges.untilStopped root fun node _ ↦
          @judges_visit platform isAssetUrl node).fine Progress.empty ⟨rfl, rfl⟩ h).2
        exact rule_of_root (hfine node hnode) rule hrule

end Accepted

end Odudu.DomainTheme.Stylesheets
