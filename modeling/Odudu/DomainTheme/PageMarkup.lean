import Odudu.DomainTheme.StylesheetSelectors

/-!
# The elements of a rendered page

The elements that the document shell of `page.ts` and `document.ts` writes, the markup that the
renderers of a page's parts share, and what a template makes of the parts: their elements stand
among those of the template, wherever a browser puts them.

An element is marked with where it is from.  The marks of the parts of `consent` that say whose
access is granted and to what, and of the accounts to choose from, are those of the elements
that no stylesheet may hide, with the controls of every form: these are `Needed`.

An element that a renderer writes is `isPlain` where no selector that may hide gets to it: it has
no class of a kind of page, a control and a choice have no tag and no class that may be hidden,
and the client and the scopes have none but those that the check looks for on the consent page.
-/

set_option autoImplicit false

namespace Odudu.DomainTheme.Stylesheets

open Texts Styles Templates

/-- Where an element of a page is from. -/
inductive Mark where
  | shell
  | template
  | part
  | clientName
  | scopes
  | choice
  deriving DecidableEq

abbrev PageElement : Type := Element Utf16 Mark

abbrev PageDom : Type := Dom Utf16 Mark

def marked (mark : Mark) (tag : String) (classes : List String) (children : List PageDom) :
    PageDom :=
  .element ⟨ofAscii tag, classes.map ofAscii, mark⟩ children

/-- An element of a part of the page. -/
def el (tag : String) (classes : List String) (children : List PageDom) : PageDom :=
  marked .part tag classes children

/-! ### Texts -/

/-- What the markup of a message is made of: its words, and values that are isolated. -/
inductive Inline where
  | words
  | isolated

/-- The markup that `tHtml` makes of each message. -/
abbrev Phrases : Type := String → List Inline

def phraseOf (mark : Mark) (phrase : List Inline) : List PageDom :=
  phrase.map fun
    | .words => .text
    | .isolated => marked mark "bdi" [] [.text]

def phrase (inlines : List Inline) : List PageDom := phraseOf .part inlines

/-- `bdi` -/
def bdi : List Inline := [.isolated]

def paragraph (inlines : List Inline) : PageDom := el "p" [] (phrase inlines)

/-- `intro`, with the mark of its heading. -/
def introOf (mark : Mark) (heading : List Inline) (tenant : Bool) (context : List (List Inline)) :
    List PageDom :=
  [marked mark "header" ["intro"]
    (marked mark "h1" [] (phraseOf mark heading) ::
      (context.map (fun line ↦ el "p" ["context"] (phrase line)) ++
        if tenant then [el "p" ["tenant"] (phrase bdi)] else []))]

def intro (heading : List Inline) : List PageDom := introOf .part heading true []

/-- `links`, of as many ways on as there are. -/
def links (ways : List (List Inline)) : List PageDom :=
  if ways = [] then []
  else [el "p" ["links"] (ways.map fun text ↦ el "a" [] (phrase text))]

/-! ### Forms -/

def input : PageDom := el "input" [] []

def label (text : List Inline) : PageDom := el "label" [] (phrase text ++ [.text, input])

def button (classes : List String) (text : List Inline) : PageDom :=
  el "button" classes (phrase text)

/-- `problemSummary` -/
def problemSummary (problems : List (List Inline)) : List PageDom :=
  if problems = [] then []
  else [el "div" ["alert"] [el "ul" [] (problems.map fun problem ↦ el "li" [] (phrase problem))]]

def script : PageDom := el "script" [] [.text]

/-- `passwordHints`, of so many rules. -/
def passwordHints (tHtml : Phrases) (rules : List (List Inline)) : List PageDom :=
  [el "div" ["rules", "hint"]
    [el "p" ["rules-head"]
      [el "span" [] (phrase (tHtml "updatePassword.hint.heading")),
        button ["quiet"] (tHtml "updatePassword.hint.show"), el "span" [] []],
      el "ul" [] (rules.map fun rule ↦ el "li" [] (phrase rule))],
    script]

/-- `passwordField` -/
def passwordField (tHtml : Phrases) (message : String) (rules : List (List Inline)) :
    List PageDom :=
  label (tHtml message) :: passwordHints tHtml rules

/-! ### Parts and templates -/

/-- The elements of each part, by the name of its slot; those of `form.open` are in the form. -/
abbrev Parts : Type := List (Utf16 × List PageDom)

def Parts.slot (parts : Parts) (name : Utf16) : List PageDom := (parts.lookup name).getD []

/-- A part of a page. -/
def slotOf (name : String) (nodes : List PageDom) : Utf16 × List PageDom := (ofAscii name, nodes)

/-- What a browser may make of a template: its elements, which are allowed ones, the form between
its two parts, and the other parts, in any order and one in another as it will. -/
inductive Template where
  | text
  | element (tag : Utf16) (allowed : tag ∈ ALLOWED_ELEMENTS) (classes : List Utf16)
      (children : List Template)
  | form (children : List Template)
  | slot (name : Utf16)

mutual

def Template.fill (parts : Parts) : Template → List PageDom
  | .text => [.text]
  | .element tag _ classes children => [.element ⟨tag, classes, .template⟩ (fillAll parts children)]
  | .form children => [el "form" [] (parts.slot FORM_OPEN ++ fillAll parts children)]
  | .slot name => parts.slot name

def fillAll (parts : Parts) : List Template → List PageDom
  | [] => []
  | piece :: pieces => piece.fill parts ++ fillAll parts pieces

end

/-! ### The shell -/

/-- `mainClass` -/
def mainClass (themed : Bool) : Option PageKind → List Utf16
  | none => [ofAscii "page"]
  | some kind => if themed then [ofAscii "page", pageKindHook kind] else [ofAscii "page"]

/-- The brand line: the product's own, or a tenant's logo, for both schemes or one for each. -/
inductive Logo where
  | stock
  | one
  | two

def shellEl (tag : String) (classes : List String) (children : List PageDom) : PageDom :=
  marked .shell tag classes children

def brandMarkup : Logo → PageDom
  | .stock =>
    shellEl "p" ["brand"]
      [shellEl "svg" ["mark"] [shellEl "circle" [] [], shellEl "path" [] [], shellEl "path" [] []],
        shellEl "span" ["wordmark"] [.text]]
  | .one => shellEl "p" ["brand"] [shellEl "img" ["logo"] []]
  | .two =>
    shellEl "p" ["brand"]
      [shellEl "img" ["logo", "logo-light"] [], shellEl "img" ["logo", "logo-dark"] []]

/-- A page that a renderer made, with the choices of the shell and of the theme. -/
structure Page where
  kind : Option PageKind
  parts : Parts
  themed : Bool
  logo : Logo
  /-- How many stylesheets and icons the head links. -/
  headLinks : ℕ
  pieces : List Template

def Page.main (page : Page) : PageDom :=
  .element ⟨ofAscii "main", mainClass page.themed page.kind, .shell⟩
    (brandMarkup page.logo :: fillAll page.parts page.pieces)

/-- The document of `page`. -/
def Page.document (page : Page) : List PageDom :=
  [shellEl "html" []
    [shellEl "head" [] (List.replicate 3 (shellEl "meta" [] []) ++ [shellEl "title" [] [.text]] ++
      List.replicate page.headLinks (shellEl "link" [] [])),
      shellEl "body" [] [page.main]]]

/-- A page outside any tenant is its one part. -/
def bareParts (nodes : List PageDom) : Parts := [slotOf "message" nodes]

def FORM_CONTROLS : List Utf16 := ["input", "button", "select", "textarea"].map ofAscii

def Needed (e : PageElement) : Prop :=
  e.tag ∈ FORM_CONTROLS ∨ e.origin ∈ [Mark.clientName, Mark.scopes, Mark.choice]

instance : DecidablePred Needed := fun _ ↦ inferInstanceAs (Decidable (_ ∨ _))

/-- No selector that may hide is of a control, or of a choice, by its tag or a class. -/
def isSafe (tag : Utf16) (classes : List Utf16) : Bool :=
  decide (tag ∉ HIDEABLE_ELEMENTS) && classes.all fun name ↦ decide (name ∉ HIDEABLE_HOOKS)

/-- An element of a part of the consent page, if `consent`, or of another. -/
def isPlain (consent : Bool) (e : PageElement) : Bool :=
  (e.classes.all fun name ↦ decide (name ∉ PAGE_KIND_HOOKS)) &&
    match e.origin with
    | .shell | .template => false
    | .part => decide (e.tag ∉ FORM_CONTROLS) || isSafe e.tag e.classes
    | .choice => isSafe e.tag e.classes
    | .clientName =>
      consent && (decide (e.tag ∈ CONSENT_ELEMENTS) || decide (e.tag ∉ HIDEABLE_ELEMENTS)) &&
        e.classes.all fun name ↦ decide (name = ofAscii "intro")
    | .scopes =>
      consent && (decide (e.tag ∈ CONSENT_ELEMENTS) || decide (e.tag ∉ HIDEABLE_ELEMENTS)) &&
        e.classes.isEmpty

def AllPlain (consent : Bool) (nodes : List PageDom) : Prop :=
  ∀ e ∈ elementsOf nodes, isPlain consent e = true

section AllPlain

variable {consent : Bool} {nodes nodes' : List PageDom}

@[simp] theorem allPlain_nil : AllPlain consent [] := by simp [AllPlain]

@[simp] theorem allPlain_append :
    AllPlain consent (nodes ++ nodes') ↔ AllPlain consent nodes ∧ AllPlain consent nodes' := by
  rw [AllPlain, elementsOf_append]
  exact List.forall_mem_append

@[simp] theorem allPlain_text :
    AllPlain consent (.text :: nodes) ↔ AllPlain consent nodes := by
  rw [AllPlain, elementsOf_cons, elements_text]
  exact Iff.rfl

@[simp] theorem allPlain_marked {mark : Mark} {tag : String} {classes : List String} :
    AllPlain consent (marked mark tag classes nodes :: nodes') ↔
      isPlain consent ⟨ofAscii tag, classes.map ofAscii, mark⟩ = true ∧
        AllPlain consent nodes ∧ AllPlain consent nodes' := by
  rw [AllPlain, marked, elementsOf_cons, elements_element, List.cons_append, List.forall_mem_cons]
  exact and_congr_right fun _ ↦ List.forall_mem_append

/-- Whether an element of a part is plain, which no kind of page makes different. -/
def isPlainPart (tag : String) (classes : List String) : Bool :=
  isPlain false ⟨ofAscii tag, classes.map ofAscii, .part⟩

@[simp] theorem allPlain_el {tag : String} {classes : List String} :
    AllPlain consent (el tag classes nodes :: nodes') ↔
      isPlainPart tag classes = true ∧ AllPlain consent nodes ∧ AllPlain consent nodes' :=
  allPlain_marked

theorem allPlain_iff : AllPlain consent nodes ↔ ∀ node ∈ nodes, AllPlain consent [node] := by
  simp only [AllPlain, mem_elementsOf, List.mem_singleton, exists_eq_left]
  exact ⟨fun h node hnode e he ↦ h e ⟨node, hnode, he⟩, fun h e ⟨node, hnode, he⟩ ↦
    h node hnode e he⟩

@[simp] theorem allPlain_map {α : Type} {items : List α} {f : α → PageDom} :
    AllPlain consent (items.map f) ↔ ∀ item ∈ items, AllPlain consent [f item] := by
  rw [allPlain_iff, List.forall_mem_map]

@[simp] theorem allPlain_flatMap {α : Type} {items : List α} {f : α → List PageDom} :
    AllPlain consent (items.flatMap f) ↔ ∀ item ∈ items, AllPlain consent (f item) := by
  induction items with
  | nil => simp
  | cons _ _ ih => simp [ih]

@[simp] theorem allPlain_replicate {n : ℕ} {node : PageDom} :
    AllPlain consent (List.replicate n node) ↔ n = 0 ∨ AllPlain consent [node] := by
  rw [allPlain_iff]
  simp only [List.mem_replicate, and_imp, forall_eq_apply_imp_iff]
  cases n <;> simp

/-! ### What the renderers share -/

theorem allPlain_phraseOf {mark : Mark} {inlines : List Inline}
    (h : isPlain consent ⟨ofAscii "bdi", [], mark⟩ = true) :
    AllPlain consent (phraseOf mark inlines) := by
  rw [phraseOf, allPlain_map]
  intro inline _
  cases inline with
  | words => simp
  | isolated => simpa using h

@[simp] theorem allPlain_phrase (inlines : List Inline) : AllPlain consent (phrase inlines) :=
  allPlain_phraseOf (show isPlainPart "bdi" [] = true by decide)

@[simp] theorem allPlain_input : AllPlain consent (input :: nodes) ↔ AllPlain consent nodes := by
  rw [input, allPlain_el]
  simp +decide

@[simp] theorem allPlain_label (text : List Inline) :
    AllPlain consent (label text :: nodes) ↔ AllPlain consent nodes := by
  rw [label, allPlain_el]
  simp +decide

@[simp] theorem allPlain_paragraph (text : List Inline) :
    AllPlain consent (paragraph text :: nodes) ↔ AllPlain consent nodes := by
  rw [paragraph, allPlain_el]
  simp +decide

@[simp] theorem allPlain_button (classes : List String) (text : List Inline) :
    AllPlain consent (button classes text :: nodes) ↔
      isPlainPart "button" classes = true ∧ AllPlain consent nodes := by
  rw [button, allPlain_el]
  simp

@[simp] theorem allPlain_script :
    AllPlain consent (script :: nodes) ↔ AllPlain consent nodes := by
  rw [script, allPlain_el]
  simp +decide

theorem allPlain_introOf {mark : Mark} {heading : List Inline} {tenant : Bool}
    {context : List (List Inline)}
    (hheader : isPlain consent ⟨ofAscii "header", [ofAscii "intro"], mark⟩ = true)
    (hheading : isPlain consent ⟨ofAscii "h1", [], mark⟩ = true)
    (hbdi : isPlain consent ⟨ofAscii "bdi", [], mark⟩ = true) :
    AllPlain consent (introOf mark heading tenant context) := by
  have htenant : AllPlain consent (if tenant then [el "p" ["tenant"] (phrase bdi)] else []) := by
    split
    · simp +decide
    · exact allPlain_nil
  simp +decide [introOf, hheader, hheading, allPlain_phraseOf hbdi, htenant]

theorem allPlain_introOf_part (heading : List Inline) (context : List (List Inline)) :
    AllPlain consent (introOf .part heading true context) :=
  allPlain_introOf (show isPlainPart "header" ["intro"] = true by decide)
    (show isPlainPart "h1" [] = true by decide) (show isPlainPart "bdi" [] = true by decide)

@[simp] theorem allPlain_intro (heading : List Inline) : AllPlain consent (intro heading) :=
  allPlain_introOf_part heading []

@[simp] theorem allPlain_links (ways : List (List Inline)) : AllPlain consent (links ways) := by
  unfold links
  split
  · exact allPlain_nil
  · simp +decide

@[simp] theorem allPlain_problemSummary (problems : List (List Inline)) :
    AllPlain consent (problemSummary problems) := by
  unfold problemSummary
  split
  · exact allPlain_nil
  · simp +decide

@[simp] theorem allPlain_passwordField (tHtml : Phrases) (message : String)
    (rules : List (List Inline)) : AllPlain consent (passwordField tHtml message rules) := by
  simp +decide [passwordField, passwordHints]

end AllPlain

/-! ### Parts -/

def PlainParts (consent : Bool) (parts : Parts) : Prop :=
  ∀ part ∈ parts, AllPlain consent part.2

section Parts

variable {consent : Bool} {parts : Parts}

@[simp] theorem plainParts_nil : PlainParts consent [] :=
  fun _ hpart ↦ absurd hpart List.not_mem_nil

@[simp] theorem plainParts_cons {name : String} {nodes : List PageDom} :
    PlainParts consent (slotOf name nodes :: parts) ↔
      AllPlain consent nodes ∧ PlainParts consent parts := List.forall_mem_cons

@[simp] theorem plainParts_append {parts' : Parts} :
    PlainParts consent (parts ++ parts') ↔ PlainParts consent parts ∧ PlainParts consent parts' :=
  List.forall_mem_append

theorem PlainParts.slot (h : PlainParts consent parts) (name : Utf16) :
    AllPlain consent (parts.slot name) := by
  rw [Parts.slot]
  cases hlookup : parts.lookup name with
  | none => exact allPlain_nil
  | some nodes =>
    obtain ⟨before, after, rfl, -⟩ := List.lookup_eq_some_iff.mp hlookup
    exact h (name, nodes) (List.mem_append_right _ List.mem_cons_self)

end Parts

end Odudu.DomainTheme.Stylesheets
