import Odudu.Account.PageParts
import Odudu.AuthnFlows.PageParts
import Odudu.DomainTheme.KeptUrls
import Odudu.DomainTheme.SelectorReading
import Odudu.ProtocolOidc.PageParts

/-!
# What a stylesheet leaves shown

A page is of a renderer's parts, set in the shell and in a template.  A rule of a stylesheet
reaches an element of a page where one of its selectors matches it; what a pseudo-class holds
of is left open, and every media query may hold.

An accepted stylesheet hides a needed element of a page only by a declaration that the check
overlooks, or by a rule for another kind of page whose class the page's template has
(`shows_iff`).
-/

set_option autoImplicit false

namespace Odudu.DomainTheme.Stylesheets

open Texts Styles Templates
open ProtocolOidc.PageParts AuthnFlows.PageParts Account.PageParts

/-! ### Pages -/

/-- A call of a renderer. -/
inductive Rendering where
  | login (form : LoginForm)
  | consent (page : ConsentPageInput)
  | selectAccount (accounts : ℕ)
  | authorizeError (wayOn : Option String)
  | emailUnverified (signIn : Bool)
  | logoutConfirmation (fields : ℕ)
  | noActiveSession
  | loggedOut (frames : ℕ)
  | loggedOutRedirect (frames : ℕ)
  | logoutRedirectRefused (frames : ℕ)
  | logoutUnauthenticated
  | totpEnrolment (problems : List (List Inline)) (shapes : ℕ)
  | passkeyEnrolment (problems : List (List Inline))
  | recoveryCodes (problems : List (List Inline)) (codes : ℕ) (replaced : Bool)
  | updatePassword (problems rules : List (List Inline))
  | requiredAction (signIn : Bool)
  | registration (problems rules : List (List Inline)) (signInPath : Bool)
  | resetRequest (problems : List (List Inline)) (signInPath : Bool)
  | resetPassword (problems rules : List (List Inline))
  | emailConfirm (account : Bool)
  | requiredActions (actions problems : List (List Inline)) (rules : Option (List (List Inline)))
  | notice (heading : String) (blocks : List NoticeBlock) (ways : List (List Inline))
  | notFound (items : List String)
  | serverError (requestId : Bool)
  | throttled
  | previousAddress
  | signInRefused

def Rendering.kind : Rendering → Option PageKind
  | .login _ => some .signIn
  | .consent _ => some .consent
  | .selectAccount _ => some .selectAccount
  | .authorizeError _ => some .authorizeError
  | .emailUnverified _ => some .emailUnverified
  | .logoutConfirmation _ => some .logoutConfirm
  | .noActiveSession | .loggedOut _ | .loggedOutRedirect _ | .logoutRedirectRefused _
  | .logoutUnauthenticated => some .loggedOut
  | .totpEnrolment _ _ => some .totpEnrolment
  | .passkeyEnrolment _ => some .passkeyEnrolment
  | .recoveryCodes _ _ _ => some .recoveryCodes
  | .updatePassword _ _ => some .updatePassword
  | .requiredAction _ => some .requiredAction
  | .registration _ _ _ => some .registration
  | .resetRequest _ _ | .resetPassword _ _ => some .reset
  | .emailConfirm _ => some .verification
  | .requiredActions _ _ _ => some .requiredActions
  | .notice _ _ _ => some .notice
  | .notFound _ | .serverError _ | .throttled | .previousAddress | .signInRefused => none

def Rendering.parts (tHtml : Phrases) : Rendering → Parts
  | .login form => renderLoginForm tHtml form
  | .consent page => renderConsentPage tHtml page
  | .selectAccount accounts => renderSelectAccountPage tHtml accounts
  | .authorizeError wayOn => renderAuthorizeErrorPage tHtml wayOn
  | .emailUnverified signIn => renderEmailUnverifiedPage tHtml signIn
  | .logoutConfirmation fields => renderLogoutConfirmationPage tHtml fields
  | .noActiveSession => renderNoActiveSessionPage tHtml
  | .loggedOut frames => renderLoggedOutPage tHtml frames
  | .loggedOutRedirect frames => renderLoggedOutRedirectPage tHtml frames
  | .logoutRedirectRefused frames => renderLogoutRedirectRefusedPage tHtml frames
  | .logoutUnauthenticated => renderLogoutUnauthenticatedPage tHtml
  | .totpEnrolment problems shapes => renderTotpEnrolmentPage tHtml problems shapes
  | .passkeyEnrolment problems => renderPasskeyEnrolmentPage tHtml problems
  | .recoveryCodes problems codes replaced => renderRecoveryCodesPage tHtml problems codes replaced
  | .updatePassword problems rules => renderUpdatePasswordPage tHtml problems rules
  | .requiredAction signIn => renderRequiredActionPage tHtml signIn
  | .registration problems rules signInPath =>
    renderRegistrationForm tHtml problems rules signInPath
  | .resetRequest problems signInPath => renderResetRequestForm tHtml problems signInPath
  | .resetPassword problems rules => renderResetPasswordForm tHtml problems rules
  | .emailConfirm account => renderEmailConfirmPage tHtml account
  | .requiredActions actions problems rules =>
    renderRequiredActionsForm tHtml actions problems rules
  | .notice heading blocks ways => fillNotice tHtml heading blocks ways
  | .notFound items => bareParts (renderNotFoundPage tHtml items)
  | .serverError requestId => bareParts (renderServerErrorPage tHtml requestId)
  | .throttled => bareParts (renderThrottledPage tHtml)
  | .previousAddress => bareParts (renderPreviousAddressPage tHtml)
  | .signInRefused => bareParts (renderSignInRefused tHtml)

/-- A page that the renderers can produce. -/
def Page.Rendered (tHtml : Phrases) (page : Page) : Prop :=
  ∃ rendering : Rendering, page.kind = rendering.kind ∧ page.parts = rendering.parts tHtml

/-- What a renderer writes is plain, and what is of the client and the scopes is on the consent
page only. -/
theorem Rendering.plain (tHtml : Phrases) (rendering : Rendering) :
    PlainParts (rendering.kind = some .consent) (rendering.parts tHtml) := by
  have hbare : ∀ nodes, AllPlain false nodes → PlainParts false (bareParts nodes) :=
    fun nodes h ↦ plainParts_cons.mpr ⟨h, plainParts_nil⟩
  cases rendering with
  | login form => exact plain_login tHtml form
  | consent page => exact plain_consent tHtml page
  | selectAccount accounts => exact plain_selectAccount tHtml accounts
  | authorizeError wayOn => exact plain_authorizeError tHtml wayOn
  | emailUnverified signIn => exact plain_emailUnverified tHtml signIn
  | logoutConfirmation fields => exact plain_logoutConfirmation tHtml fields
  | noActiveSession | logoutUnauthenticated => exact plain_loggedOut tHtml _ _ 0 none
  | loggedOut frames | logoutRedirectRefused frames => exact plain_loggedOut tHtml _ _ frames none
  | loggedOutRedirect frames => exact plain_loggedOut tHtml _ _ frames _
  | totpEnrolment problems shapes => exact plain_totpEnrolment tHtml problems shapes
  | passkeyEnrolment problems => exact plain_passkeyEnrolment tHtml problems
  | recoveryCodes problems codes replaced =>
    exact plain_recoveryCodes tHtml problems codes replaced
  | updatePassword problems rules => exact plain_updatePassword tHtml problems rules
  | requiredAction signIn => exact plain_requiredAction tHtml signIn
  | registration problems rules signInPath =>
    exact plain_registration tHtml problems rules signInPath
  | resetRequest problems signInPath => exact plain_resetRequest tHtml problems signInPath
  | resetPassword problems rules => exact plain_resetPassword tHtml problems rules
  | emailConfirm account => exact plain_emailConfirm tHtml account
  | requiredActions actions problems rules =>
    exact plain_requiredActions tHtml actions problems rules
  | notice heading blocks ways => exact plain_notice tHtml heading blocks ways
  | notFound items => exact hbare _ (plain_notFound tHtml items)
  | serverError requestId => exact hbare _ (plain_serverError tHtml requestId)
  | throttled => exact hbare _ (plain_throttled tHtml)
  | previousAddress => exact hbare _ (plain_previousAddress tHtml)
  | signInRefused => exact hbare _ (plain_signInRefused tHtml)

/-! ### The elements of a page -/

/-- What is known of an element of a page of some kind. -/
inductive Accounted (kind : Option PageKind) (e : PageElement) : Prop where
  | shell (hcontrol : ¬Needed e)
      (hclasses : kind = some .consent → ∀ name ∈ e.classes, ¬namesOtherPage name)
  | template (horigin : e.origin = .template) (htag : e.tag ∈ ALLOWED_ELEMENTS)
  | part (hplain : isPlain (kind = some .consent) e = true)

section Elements

variable {kind : Option PageKind} {parts : Parts}

mutual

theorem accounted_fill (h : PlainParts (kind = some .consent) parts) :
    ∀ piece : Template, ∀ e ∈ elementsOf (piece.fill parts), Accounted kind e
  | .text => by
    intro e he
    rw [Template.fill, elementsOf_cons, elements_text, elementsOf_nil] at he
    exact absurd he List.not_mem_nil
  | .element tag allowed classes children => by
    intro e he
    rw [Template.fill, elementsOf_cons, elements_element, elementsOf_nil, List.append_nil] at he
    rcases List.mem_cons.mp he with rfl | he
    · exact Accounted.template rfl allowed
    · exact accounted_fillAll h children e he
  | .form children => by
    intro e he
    rw [Template.fill, el, marked, elementsOf_cons, elements_element, elementsOf_nil,
      List.append_nil, elementsOf_append] at he
    rcases List.mem_cons.mp he with rfl | he
    · exact Accounted.part (show isPlainPart "form" [] = true by decide)
    · rcases List.mem_append.mp he with he | he
      · exact Accounted.part (h.slot FORM_OPEN e he)
      · exact accounted_fillAll h children e he
  | .slot name => by
    intro e he
    exact Accounted.part (h.slot name e he)

theorem accounted_fillAll (h : PlainParts (kind = some .consent) parts) :
    ∀ pieces : List Template, ∀ e ∈ elementsOf (fillAll parts pieces), Accounted kind e
  | [] => by
    intro e he
    rw [fillAll, elementsOf_nil] at he
    exact absurd he List.not_mem_nil
  | piece :: pieces => by
    intro e he
    rw [fillAll, elementsOf_append] at he
    rcases List.mem_append.mp he with he | he
    · exact accounted_fill h piece e he
    · exact accounted_fillAll h pieces e he

end

/-- What the shell writes beside the main part has no class of a kind of page. -/
def isBare (tag : String) (classes : List String) : Bool :=
  decide (ofAscii tag ∉ FORM_CONTROLS) && classes.all fun name ↦
    decide (ofAscii name ∉ PAGE_KIND_HOOKS)

theorem accounted_shell {tag : String} {classes : List String} (h : isBare tag classes = true) :
    Accounted kind ⟨ofAscii tag, classes.map ofAscii, .shell⟩ := by
  obtain ⟨hcontrol, hclasses⟩ := (Bool.and_eq_true _ _).mp h
  refine Accounted.shell ?_ fun _ name hname hother ↦ ?_
  · rintro (htag | horigin)
    · exact of_decide_eq_true hcontrol htag
    · simp at horigin
  · obtain ⟨hook, hhook, rfl⟩ := List.mem_map.mp hname
    exact of_decide_eq_true (List.all_eq_true.mp hclasses hook hhook) hother.1

def AllAccounted (kind : Option PageKind) (nodes : List PageDom) : Prop :=
  ∀ e ∈ elementsOf nodes, Accounted kind e

@[simp] theorem allAccounted_nil : AllAccounted kind [] := by simp [AllAccounted]

@[simp] theorem allAccounted_text {nodes : List PageDom} :
    AllAccounted kind (.text :: nodes) ↔ AllAccounted kind nodes := by
  rw [AllAccounted, elementsOf_cons, elements_text]
  exact Iff.rfl

@[simp] theorem allAccounted_append {nodes nodes' : List PageDom} :
    AllAccounted kind (nodes ++ nodes') ↔ AllAccounted kind nodes ∧ AllAccounted kind nodes' := by
  rw [AllAccounted, elementsOf_append]
  exact List.forall_mem_append

@[simp] theorem allAccounted_shellEl {tag : String} {classes : List String}
    {nodes nodes' : List PageDom} (h : isBare tag classes = true) :
    AllAccounted kind (shellEl tag classes nodes :: nodes') ↔
      AllAccounted kind nodes ∧ AllAccounted kind nodes' := by
  rw [AllAccounted, shellEl, marked, elementsOf_cons, elements_element, List.cons_append,
    List.forall_mem_cons, List.forall_mem_append]
  exact and_iff_right (accounted_shell h)

theorem allAccounted_shellEls {tag : String} (h : isBare tag [] = true) (n : ℕ) :
    AllAccounted kind (List.replicate n (shellEl tag [] [])) := by
  induction n with
  | zero => exact allAccounted_nil
  | succ n ih =>
    rw [List.replicate_succ, allAccounted_shellEl h]
    exact ⟨allAccounted_nil, ih⟩

theorem accounted_main (themed : Bool) :
    Accounted kind ⟨ofAscii "main", mainClass themed kind, .shell⟩ := by
  have hcontrol : ofAscii "main" ∉ FORM_CONTROLS := by decide
  have hshell : Mark.shell ∉ [Mark.clientName, Mark.scopes, Mark.choice] := by decide
  refine Accounted.shell (fun h ↦ h.elim hcontrol hshell) fun hkind name hname hother ↦ ?_
  subst hkind
  rw [mainClass] at hname
  have hpage : ¬namesOtherPage (ofAscii "page") := by decide
  have hconsent : ¬namesOtherPage (pageKindHook .consent) := by decide
  cases themed
  · exact hpage (List.mem_singleton.mp hname ▸ hother)
  · rcases List.mem_pair.mp hname with rfl | rfl
    · exact hpage hother
    · exact hconsent hother

/-- Each element of a page is of the shell, of the template, or one that a renderer wrote. -/
theorem Page.accounted {tHtml : Phrases} {page : Page} (h : page.Rendered tHtml) :
    AllAccounted page.kind page.document := by
  obtain ⟨rendering, hkind, hparts⟩ := h
  have hplain : PlainParts (page.kind = some .consent) page.parts := by
    rw [hkind, hparts]
    exact rendering.plain tHtml
  have hbrand : AllAccounted page.kind [brandMarkup page.logo] := by
    cases page.logo <;> simp +decide [brandMarkup]
  have hmain : AllAccounted page.kind [page.main] := by
    rw [AllAccounted, Page.main, elementsOf_cons, elements_element, elementsOf_nil,
      List.append_nil, List.forall_mem_cons]
    refine ⟨accounted_main page.themed, ?_⟩
    exact allAccounted_append.mpr ⟨hbrand, accounted_fillAll hplain page.pieces⟩
  simp +decide [Page.document, hmain, allAccounted_shellEls]

end Elements

/-! ### What a rule reaches -/

section Reach

variable (holds : Utf16 → Place Utf16 Mark → Prop)

/-- One of the selectors of a rule matches a place. -/
def Rule.Matches (rule : Rule) (place : Place Utf16 Mark) : Prop :=
  ∃ one ∈ rule.selector.splitOn 0x2C, ∃ selector : Selector Utf16,
    selector.Spells one ∧ selector.Matches holds place

/-- A rule matches an element that the page must show. -/
def Rule.Reaches (rule : Rule) (page : Page) : Prop :=
  ∃ frame outer children, Stands page.document (frame :: outer) children ∧
    Needed frame.element ∧ rule.Matches holds (frame :: outer)

/-- A class of the template is one that a rule for another kind of page is by. -/
def Rule.Astray (rule : Rule) (page : Page) : Prop :=
  ∃ e ∈ elementsOf page.document, e.origin = .template ∧ ∃ name ∈ e.classes,
    namesOtherPage name ∧ ∃ compounds ∈ rule.compounds, ∃ compound ∈ compounds,
      name ∈ compound.classes

variable {holds} {rule : Rule}

/-- Where every selector of a rule is read, what is read of one that matches is of the rule. -/
theorem compounds_of_spells (hnone : (readSelectors rule.selector).2 = [])
    {one : Utf16} (hone : one ∈ rule.selector.splitOn 0x2C) {selector : Selector Utf16}
    (hspells : selector.Spells one) : selector.compounds.map kept ∈ rule.compounds := by
  unfold readSelectors at hnone
  split at hnone
  · cases hnone
  rename_i hshort
  extract_lets list at hnone
  split at hnone
  · cases hnone
  rename_i hfew
  have hread : ∃ compounds, readSelector one = .ok compounds := by
    cases hread : readSelector one with
    | ok compounds => exact ⟨compounds, rfl⟩
    | error =>
      have hproblem := List.filterMap_eq_nil_iff.mp hnone one hone
      rw [hread] at hproblem
      cases hproblem
  obtain ⟨compounds, hread⟩ := hread
  rw [← readSelector_of_spells hspells hread, Rule.compounds, readSelectors, if_neg hshort]
  dsimp only
  rw [if_neg hfew]
  exact List.mem_filterMap.mpr ⟨one, hone, by rw [hread]; rfl⟩

variable {subject : Compound Utf16} {e : PageElement}

theorem not_hides_of_safe
    (hsafe : isSafe e.tag e.classes = true) (hfits : subject.Fits e) :
    ¬subjectMayBeHidden (kept subject) := by
  obtain ⟨htag, hclasses⟩ := (Bool.and_eq_true _ _).mp hsafe
  intro hmay
  unfold subjectMayBeHidden at hmay
  split at hmay
  · rename_i hsome
    obtain ⟨name, hname⟩ := List.exists_mem_of_ne_nil _ hsome
    exact of_decide_eq_true (List.all_eq_true.mp hclasses name (hfits.2 hname)) (hmay name hname)
  · obtain ⟨element, helement, hhideable⟩ := hmay
    rw [hfits.1 element helement] at hhideable
    exact of_decide_eq_true htag hhideable

theorem targetsHeading_of_open
    (htag : e.tag ∈ CONSENT_ELEMENTS ∨ e.tag ∉ HIDEABLE_ELEMENTS)
    (hclasses : ∀ name ∈ e.classes, name = ofAscii "intro") (hfits : subject.Fits e)
    (hmay : subjectMayBeHidden (kept subject)) : targetsHeading (kept subject) := by
  unfold subjectMayBeHidden at hmay
  unfold targetsHeading
  split at hmay
  · rename_i hsome
    rw [if_pos hsome]
    obtain ⟨name, hname⟩ := List.exists_mem_of_ne_nil _ hsome
    rw [← hclasses name (hfits.2 hname)]
    exact hname
  · rename_i hnone
    rw [if_neg hnone]
    obtain ⟨element, helement, hhideable⟩ := hmay
    refine ⟨element, helement, ?_⟩
    rw [hfits.1 element helement] at hhideable ⊢
    exact htag.resolve_right fun hnot ↦ hnot hhideable

/-- The subject of a selector that may hide a needed element that a renderer wrote is what the
check looks for on the consent page. -/
theorem targetsHeading_of_hides {consent : Bool}
    (hplain : isPlain consent e = true) (hneeded : Needed e) (hfits : subject.Fits e)
    (hmay : subjectMayBeHidden (kept subject)) :
    targetsHeading (kept subject) ∧ consent = true := by
  have hsafe : isSafe e.tag e.classes = false := by
    by_contra hsafe
    exact not_hides_of_safe (Bool.eq_true_of_not_eq_false hsafe) hfits hmay
  unfold isPlain at hplain
  rw [Bool.and_eq_true] at hplain
  have hopen := hplain.2
  cases horigin : e.origin with
  | shell | template =>
    rw [horigin] at hopen
    cases hopen
  | part =>
    have hcontrol : e.tag ∈ FORM_CONTROLS := by
      refine hneeded.resolve_right fun hmark ↦ ?_
      rw [horigin] at hmark
      simp at hmark
    rw [horigin] at hopen
    simp [hsafe, hcontrol] at hopen
  | choice =>
    rw [horigin] at hopen
    simp [hsafe] at hopen
  | clientName =>
    rw [horigin] at hopen
    simp only [Bool.and_eq_true, Bool.or_eq_true, decide_eq_true_eq, List.all_eq_true] at hopen
    obtain ⟨⟨hconsent, htag⟩, hclasses⟩ := hopen
    exact ⟨targetsHeading_of_open htag hclasses hfits hmay, hconsent⟩
  | scopes =>
    rw [horigin] at hopen
    simp only [Bool.and_eq_true, Bool.or_eq_true, decide_eq_true_eq, List.isEmpty_iff] at hopen
    obtain ⟨⟨hconsent, htag⟩, hclasses⟩ := hopen
    refine ⟨targetsHeading_of_open htag (fun name hname ↦ ?_) hfits hmay, hconsent⟩
    rw [hclasses] at hname
    exact absurd hname List.not_mem_nil

theorem mayBeHidden_of_mayHide (h : rule.mayHide = true) :
    mayBeHidden rule.compounds := by
  rw [Rule.mayHide, mayHideRule, Bool.and_eq_true] at h
  exact of_decide_eq_true h.2

/-- No template has a control of its own. -/
theorem not_needed_of_template (horigin : e.origin = .template)
    (htag : e.tag ∈ ALLOWED_ELEMENTS) : ¬Needed e := by
  have hapart : ∀ tag ∈ FORM_CONTROLS, tag ∉ ALLOWED_ELEMENTS := by decide
  rintro (hcontrol | hmark)
  · exact hapart _ hcontrol htag
  · rw [horigin] at hmark
    simp at hmark

/-- A rule that may hide reaches a needed element only by a class of the template. -/
theorem astray_of_reaches {tHtml : Phrases} {page : Page}
    (hread : (readSelectors rule.selector).2 = []) (hpage : page.Rendered tHtml)
    (hmay : rule.mayHide = true) (hreaches : rule.Reaches holds page) : rule.Astray page := by
  obtain ⟨frame, outer, children, hstands, hneeded, one, hone, selector, hspells, hmatches⟩ :=
    hreaches
  have hcompounds := compounds_of_spells hread hone hspells
  obtain ⟨subject, hsubject, hclient, hhidden, -⟩ :=
    mayBeHidden_of_mayHide hmay _ hcompounds
  have hkept : subject = kept selector.subject := by
    have hne : selector.compounds ≠ [] := List.cons_ne_nil _ _
    rw [Option.mem_def, List.getLast?_map, List.getLast?_eq_some_getLast hne] at hsubject
    exact (Option.some.inj hsubject).symm
  have hdocument := hstands.around_subset
  cases Page.accounted hpage _ (hdocument (element_mem_around frame outer)) with
  | shell hcontrol => exact absurd hneeded hcontrol
  | template horigin htag => exact absurd hneeded (not_needed_of_template horigin htag)
  | part hplain =>
    obtain ⟨htargets, hkind⟩ := targetsHeading_of_hides hplain hneeded hmatches.fits_subject
      (hkept ▸ hhidden)
    -- The check found a class of another page in the selector.
    have hother : ∃ compound ∈ selector.compounds.map kept, ∃ name ∈ compound.classes,
        namesOtherPage name := by
      by_contra hnone
      exact hclient ⟨⟨subject, hsubject, hkept ▸ htargets⟩, hnone⟩
    obtain ⟨_, hcompound, name, hname, hother⟩ := hother
    obtain ⟨compound, hcompound', rfl⟩ := List.mem_map.mp hcompound
    obtain ⟨e, haround, hfits⟩ := hmatches.exists_fits compound hcompound'
    have hclass : name ∈ e.classes := hfits.2 hname
    cases Page.accounted hpage e (hdocument haround) with
    | shell _ hclasses => exact absurd hother (hclasses (of_decide_eq_true hkind) name hclass)
    | template horigin =>
      exact ⟨e, hdocument haround, horigin, name, hclass, hother, _, hcompounds, _, hcompound,
        hname⟩
    | part hplain' =>
      have hhooks := ((Bool.and_eq_true _ _).mp hplain').1
      exact absurd hother.1 (of_decide_eq_true (List.all_eq_true.mp hhooks name hclass))

end Reach

/-! ### What is shown -/

section Shown

variable (platform : CssPlatform) (holds : Utf16 → Place Utf16 Mark → Prop)

/-- What a declaration hides its rule is laid on, an element that the page must show. -/
def Rule.Conceals (rule : Rule) (page : Page) (decl : Declaration) : Prop :=
  rule.Reaches holds page ∧ .decl decl ∈ rule.nodes ∧
    Hides platform (lowerText decl.prop) (platform.valueParser decl.value)

/-- How a declaration of a rule gets past the check: by its own value, or where its rule may hide
and a class of the template is one of another page. -/
inductive Rule.GetsPast (rule : Rule) (page : Page) (decl : Declaration) : Prop where
  | overlooked (h : Overlooked platform (lowerText decl.prop) decl.value)
  | astray (hmay : rule.mayHide = true) (hastray : rule.Astray page)
      (hhides : Hides platform (lowerText decl.prop) (platform.valueParser decl.value))

variable {platform holds} {isAssetUrl : Option (Utf16 → Bool)} {decl : Declaration}

theorem hides_of_getsPast {rule : Rule} {page : Page}
    (h : rule.GetsPast platform page decl) :
    Hides platform (lowerText decl.prop) (platform.valueParser decl.value) := by
  cases h with
  | overlooked h => exact hides_of_overlooked h
  | astray _ _ hhides => exact hhides

theorem getsPast_of_conceals {tHtml : Phrases} {scheme : Scheme} {rule : Rule} {page : Page}
    (hfine : RuleFine platform isAssetUrl scheme rule)
    (hpage : page.Rendered tHtml) (h : rule.Conceals platform holds page decl) :
    rule.GetsPast platform page decl := by
  obtain ⟨hreaches, hdecl, hhides⟩ := h
  have hproblems : declarationProblems platform isAssetUrl rule.mayHide scheme decl = [] :=
    hfine.children _ hdecl
  by_cases hmay : rule.mayHide = true
  · exact Rule.GetsPast.astray hmay (astray_of_reaches hfine.selectors hpage hmay hreaches) hhides
  · rw [Bool.not_eq_true] at hmay
    rw [hmay] at hproblems
    exact Rule.GetsPast.overlooked (overlooked_of_hides (declaration_fine hproblems) hhides)

/-- The sheet hides no needed element of the page, and its urls are those of assets. -/
def Shows (platform : CssPlatform) (holds : Utf16 → Place Utf16 Mark → Prop)
    (isAssetUrl : Option (Utf16 → Bool)) (root : List CssNode) (page : Page) : Prop :=
  ∀ rule ∈ rulesOf root, ∀ decl, .decl decl ∈ rule.nodes →
    ¬rule.Conceals platform holds page decl ∧
      ∀ args ∈ urlsOf platform (platform.valueParser decl.value), IsAsset platform isAssetUrl args

/-- An accepted stylesheet shows what a page must show where nothing gets past the check in a
rule that reaches it, and only there. -/
theorem shows_iff {parse : Utf16 → Except Unparsable (List CssNode)} {css : Utf16}
    {root : List CssNode} {tHtml : Phrases} {page : Page}
    (haccepted : checkStylesheet platform isAssetUrl parse css = [])
    (hparse : parse css = .ok root) (hpage : page.Rendered tHtml) :
    Shows platform holds isAssetUrl root page ↔
      ∀ rule ∈ rulesOf root, rule.Reaches holds page → ∀ decl, .decl decl ∈ rule.nodes →
        ¬rule.GetsPast platform page decl := by
  obtain ⟨root', hparse', hrules⟩ := rule_of_accepted haccepted
  obtain rfl : root = root' := Except.ok.inj (hparse.symm.trans hparse')
  constructor
  · intro hshows rule hrule hreaches decl hdecl hpast
    exact (hshows rule hrule decl hdecl).1 ⟨hreaches, hdecl, hides_of_getsPast hpast⟩
  · intro hnone rule hrule decl hdecl
    obtain ⟨scheme, hfine⟩ := hrules rule hrule
    refine ⟨fun hconceals ↦ ?_, urls_of_declaration (hfine.children _ hdecl)⟩
    exact hnone rule hrule hconceals.1 decl hdecl (getsPast_of_conceals hfine hpage hconceals)

end Shown

/-- A platform for one value of two nodes, and words. -/
def tokenPlatform : CssPlatform where
  rounding := Numbers.exactly
  toLowerCase := lowerText
  lower_ascii := fun _ _ ↦ rfl
  valueParser := fun value ↦
    if value = ofAscii "var(--space-1)" then
      [.function (ofAscii "var") false [.word (ofAscii "--space-1")]]
    else [.word value]
  stringify := fun _ ↦ []
  contrastRatio := fun _ _ ↦ none
  hsl := fun _ _ _ ↦ []

/-- `font-size: var(--space-1)`, which is four pixels. -/
def tokenSize : Declaration :=
  ⟨[], ofAscii "font-size", ofAscii "var(--space-1)", false, some (1, 8)⟩

def tokenRule : Rule := ⟨ofAscii "button", [.decl tokenSize]⟩

def tokenSheet : List CssNode := [.rule tokenRule.selector tokenRule.nodes (some (1, 1))]

def tokenText : Utf16 := ofAscii "button\x7bfont-size:var(--space-1)\x7d"

/-- The page of one account to choose. -/
def accountPage : Page where
  kind := some .selectAccount
  parts := renderSelectAccountPage (fun _ ↦ [.words]) 1
  themed := true
  logo := .stock
  headLinks := 1
  pieces := [.slot (ofAscii "intro"),
    .form [.slot (ofAscii "accounts"), .slot (ofAscii "submit.other")]]

theorem accountPage_rendered : accountPage.Rendered fun _ ↦ [.words] :=
  ⟨.selectAccount 1, rfl, rfl⟩

theorem tokenSheet_accepted :
    checkStylesheet tokenPlatform none (fun _ ↦ .ok tokenSheet) tokenText = [] := by
  decide +kernel

theorem tokenRule_reaches (holds : Utf16 → Place Utf16 Mark → Prop) :
    tokenRule.Reaches holds accountPage := by
  have hchoice : (⟨ofAscii "button", ["secondary", "choice"].map ofAscii, .choice⟩ : PageElement) ∈
      elementsOf accountPage.document := by
    decide +kernel
  obtain ⟨frame, outer, children, hstands, helement⟩ := exists_stands hchoice
  refine ⟨frame, outer, children, hstands, ?_, ofAscii "button", by decide,
    ⟨⟨some (ofAscii "button"), [], [], none⟩, []⟩, ?_, rfl, _, ?_, rfl⟩
  · rw [helement]
    decide
  · refine ⟨[], ofAscii "button", [], [], ?_, ?_, rfl, ?_, rfl⟩
    · exact fun _ h ↦ absurd h List.not_mem_nil
    · exact fun _ h ↦ absurd h List.not_mem_nil
    · have hunits : (ofAscii "button").all isIdentUnit = true := by decide
      have hident : IsIdent (ofAscii "button") := ⟨⟨0x62, rfl, rfl⟩, List.all_eq_true.mp hunits⟩
      exact ⟨ofAscii "button", [], rfl, hident.ne_nil, Or.inr ⟨hident, rfl⟩, SpellsParts.nothing⟩
  · refine ⟨⟨frame, outer, rfl, ?_, List.nil_subset _⟩, fun _ h ↦ absurd h List.not_mem_nil⟩
    rw [helement]
    rintro tag ⟨⟩
    rfl

theorem tokenSize_overlooked :
    Overlooked tokenPlatform (lowerText tokenSize.prop) tokenSize.value :=
  Overlooked.textToken _ (.function (ofAscii "var") false [.word (ofAscii "--space-1")]) 4 rfl
    ⟨_, _, ofAscii "--space-1", rfl, rfl, by decide⟩ (by norm_num)

/-- Four pixels for the text of the accounts to choose from are accepted. -/
theorem token_size_conceals :
    checkStylesheet tokenPlatform none (fun _ ↦ .ok tokenSheet) tokenText = [] ∧
      (accountPage.Rendered fun _ ↦ [.words]) ∧
      ¬Shows tokenPlatform (fun _ _ ↦ True) none tokenSheet accountPage := by
  refine ⟨tokenSheet_accepted, accountPage_rendered, fun hshows ↦ ?_⟩
  have hrule : tokenRule ∈ rulesOf tokenSheet := List.mem_cons_self
  have hdecl : .decl tokenSize ∈ tokenRule.nodes := List.mem_cons_self
  exact (hshows tokenRule hrule tokenSize hdecl).1
    ⟨tokenRule_reaches _, hdecl, hides_of_overlooked tokenSize_overlooked⟩

/-- `border-radius: 4px`, which hides nothing. -/
def roundCorners : Declaration :=
  ⟨[], ofAscii "border-radius", ofAscii "4px", false, some (1, 8)⟩

def roundRule : Rule := ⟨ofAscii "button", [.decl roundCorners]⟩

def roundSheet : List CssNode := [.rule roundRule.selector roundRule.nodes (some (1, 1))]

def roundText : Utf16 := ofAscii "button\x7bborder-radius:4px\x7d"

theorem roundCorners_hides_nothing (nodes : List ValueNode) :
    ¬Hides tokenPlatform (lowerText roundCorners.prop) nodes := by
  have hbox : lowerText roundCorners.prop ∉ BOX_PROPERTIES := by decide +kernel
  have hspacing : lowerText roundCorners.prop ∉ SPACING_PROPERTIES := by decide +kernel
  have hnamed : lowerText roundCorners.prop ∉ ["display", "visibility", "position", "clip",
      "clip-path", "opacity", "font-size", "color"].map ofAscii := by decide +kernel
  generalize lowerText roundCorners.prop = property at hbox hspacing hnamed ⊢
  intro h
  cases h with
  | smallBox _ _ _ hproperty | smallBoxToken _ _ _ _ hproperty => exact hbox hproperty
  | farAway _ _ _ hproperty => exact hspacing hproperty
  | clip _ _ hproperty => exact hnamed (List.map_subset _ (by decide) hproperty)
  | _ => exact hnamed (by simp)

/-- Buttons with round corners are shown. -/
theorem shows_iff_of_round :
    checkStylesheet tokenPlatform none (fun _ ↦ .ok roundSheet) roundText = [] ∧
      Shows tokenPlatform (fun _ _ ↦ True) none roundSheet accountPage := by
  have haccepted : checkStylesheet tokenPlatform none (fun _ ↦ .ok roundSheet) roundText = [] := by
    decide +kernel
  refine ⟨haccepted, (shows_iff haccepted rfl accountPage_rendered).mpr ?_⟩
  intro rule hrule _ decl hdecl hpast
  obtain rfl := List.mem_singleton.mp (show rule ∈ [roundRule] from hrule)
  obtain hdecl := List.mem_singleton.mp (show CssNode.decl decl ∈ [.decl roundCorners] from hdecl)
  obtain rfl := CssNode.decl.inj hdecl
  exact roundCorners_hides_nothing _ (hides_of_getsPast hpast)

end Odudu.DomainTheme.Stylesheets
