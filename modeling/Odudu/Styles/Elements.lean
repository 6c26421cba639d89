import Mathlib.Data.List.Basic

/-!
# Elements of a document

A document is a forest of texts and elements, an element having a tag, classes, and a mark of
where it is from.  A `Place` is an element with what is around it: the elements before and after
it, and the same of each element it is in.  What stands around a place of a document is of the
document (`Stands.around_subset`).
-/

set_option autoImplicit false

namespace Odudu.Styles

structure Element (Name Origin : Type) where
  tag : Name
  classes : List Name
  origin : Origin
  deriving DecidableEq

inductive Dom (Name Origin : Type) where
  | text
  | element (self : Element Name Origin) (children : List (Dom Name Origin))

variable {Name Origin : Type}

/-! ### The elements of a forest -/

mutual

def Dom.elements : Dom Name Origin → List (Element Name Origin)
  | .text => []
  | .element self children => self :: elementsOf children

def elementsOf : List (Dom Name Origin) → List (Element Name Origin)
  | [] => []
  | node :: nodes => node.elements ++ elementsOf nodes

end

/-- The elements of a forest that are in no other. -/
def outermost : List (Dom Name Origin) → List (Element Name Origin)
  | [] => []
  | .text :: nodes => outermost nodes
  | .element self _ :: nodes => self :: outermost nodes

@[simp] theorem elements_text : (Dom.text : Dom Name Origin).elements = [] := by
  rw [Dom.elements]

@[simp] theorem elements_element (self : Element Name Origin) (children : List (Dom Name Origin)) :
    (Dom.element self children).elements = self :: elementsOf children := by
  rw [Dom.elements]

@[simp] theorem elementsOf_nil : elementsOf ([] : List (Dom Name Origin)) = [] := by
  rw [elementsOf]

@[simp] theorem elementsOf_cons (node : Dom Name Origin) (nodes : List (Dom Name Origin)) :
    elementsOf (node :: nodes) = node.elements ++ elementsOf nodes := by
  rw [elementsOf]

@[simp] theorem elementsOf_append (nodes nodes' : List (Dom Name Origin)) :
    elementsOf (nodes ++ nodes') = elementsOf nodes ++ elementsOf nodes' := by
  induction nodes with
  | nil => rw [List.nil_append, elementsOf_nil, List.nil_append]
  | cons _ _ ih =>
    rw [List.cons_append, elementsOf_cons, elementsOf_cons, ih, List.append_assoc]

variable {nodes : List (Dom Name Origin)}

theorem mem_elementsOf {e : Element Name Origin} :
    e ∈ elementsOf nodes ↔ ∃ node ∈ nodes, e ∈ node.elements := by
  induction nodes with
  | nil => simp
  | cons _ _ ih => simp [ih]

theorem mem_elementsOf_of_outermost {e : Element Name Origin}
    (h : e ∈ outermost nodes) : e ∈ elementsOf nodes := by
  induction nodes with
  | nil => exact absurd h List.not_mem_nil
  | cons node _ ih =>
    rw [elementsOf_cons, List.mem_append]
    cases node with
    | text => exact Or.inr (ih h)
    | element =>
      rw [outermost, List.mem_cons] at h
      rw [elements_element, List.mem_cons]
      rcases h with rfl | h
      · exact Or.inl (Or.inl rfl)
      · exact Or.inr (ih h)

/-! ### Places -/

/-- An element among its siblings, those before it with the nearest first. -/
structure Frame (Name Origin : Type) where
  element : Element Name Origin
  before : List (Element Name Origin)
  after : List (Element Name Origin)

/-- An element, and each one it is in, outward. -/
abbrev Place (Name Origin : Type) : Type := List (Frame Name Origin)

/-- The element of a frame and its siblings. -/
def Frame.around (frame : Frame Name Origin) : List (Element Name Origin) :=
  frame.element :: (frame.before ++ frame.after)

/-- The elements that a place has around it, its own with them. -/
def around (place : Place Name Origin) : List (Element Name Origin) :=
  place.flatMap Frame.around

@[simp] theorem around_cons (frame : Frame Name Origin) (place : Place Name Origin) :
    around (frame :: place) = frame.around ++ around place := List.flatMap_cons

theorem element_mem_around (frame : Frame Name Origin) (place : Place Name Origin) :
    frame.element ∈ around (frame :: place) := by
  rw [around_cons]
  exact List.mem_append_left _ List.mem_cons_self

/-- The frame of an element between two parts of a forest. -/
def frameBetween (left : List (Dom Name Origin)) (self : Element Name Origin)
    (right : List (Dom Name Origin)) : Frame Name Origin :=
  ⟨self, (outermost left).reverse, outermost right⟩

/-- A place of a forest, with the children of its element. -/
inductive Stands (forest : List (Dom Name Origin)) :
    Place Name Origin → List (Dom Name Origin) → Prop where
  | root (left right : List (Dom Name Origin)) (self : Element Name Origin)
      (children : List (Dom Name Origin)) (h : forest = left ++ .element self children :: right) :
      Stands forest [frameBetween left self right] children
  | inside (place : Place Name Origin) (left right : List (Dom Name Origin))
      (self : Element Name Origin) (children : List (Dom Name Origin))
      (h : Stands forest place (left ++ .element self children :: right)) :
      Stands forest (frameBetween left self right :: place) children

section Around

variable {left right children : List (Dom Name Origin)} {self : Element Name Origin}

theorem around_frameBetween_subset :
    (frameBetween left self right).around ⊆
      elementsOf (left ++ .element self children :: right) := by
  intro e he
  rw [elementsOf_append, elementsOf_cons, elements_element]
  rw [Frame.around, frameBetween, List.mem_cons, List.mem_append, List.mem_reverse] at he
  rcases he with rfl | he | he
  · exact List.mem_append_right _ List.mem_cons_self
  · exact List.mem_append_left _ (mem_elementsOf_of_outermost he)
  · exact List.mem_append_right _ (List.mem_cons_of_mem _
      (List.mem_append_right _ (mem_elementsOf_of_outermost he)))

theorem children_subset :
    elementsOf children ⊆ elementsOf (left ++ .element self children :: right) := by
  intro e he
  rw [elementsOf_append, elementsOf_cons, elements_element]
  exact List.mem_append_right _ (List.mem_cons_of_mem _ (List.mem_append_left _ he))

end Around

variable {place : Place Name Origin}

/-- What is around a place of a document, and what is in its element, is of the document. -/
theorem Stands.subset {forest : List (Dom Name Origin)}
    {children : List (Dom Name Origin)} (h : Stands forest place children) :
    around place ⊆ elementsOf forest ∧ elementsOf children ⊆ elementsOf forest := by
  induction h with
  | root _ _ _ _ h =>
    subst h
    refine ⟨?_, children_subset⟩
    rw [around_cons, around, List.flatMap_nil, List.append_nil]
    exact around_frameBetween_subset
  | inside _ _ _ _ _ _ ih =>
    obtain ⟨haround, hinside⟩ := ih
    refine ⟨?_, fun e he ↦ hinside (children_subset he)⟩
    rw [around_cons]
    exact List.append_subset.mpr
      ⟨fun e he ↦ hinside (around_frameBetween_subset he), haround⟩

/-- The siblings of some place of a document, or its outermost nodes. -/
def StandTogether (forest siblings : List (Dom Name Origin)) : Prop :=
  siblings = forest ∨ ∃ place, Stands forest place siblings

section Stands

variable {forest : List (Dom Name Origin)} {e : Element Name Origin}

theorem StandTogether.stands {left right children : List (Dom Name Origin)}
    {self : Element Name Origin}
    (h : StandTogether forest (left ++ .element self children :: right)) :
    ∃ outer, Stands forest (frameBetween left self right :: outer) children := by
  rcases h with h | ⟨place, hplace⟩
  · exact ⟨[], Stands.root left right self children h.symm⟩
  · exact ⟨place, Stands.inside place left right self children hplace⟩

mutual

theorem stands_of_mem_elements :
    ∀ node : Dom Name Origin, e ∈ node.elements → ∀ left right,
      StandTogether forest (left ++ node :: right) →
        ∃ frame outer children, Stands forest (frame :: outer) children ∧ frame.element = e
  | .text => by
    intro he
    rw [elements_text] at he
    exact absurd he List.not_mem_nil
  | .element self children => by
    intro he left right htogether
    obtain ⟨outer, hstands⟩ := htogether.stands
    rw [elements_element] at he
    rcases List.mem_cons.mp he with rfl | he
    · exact ⟨frameBetween left e right, outer, children, hstands, rfl⟩
    · exact stands_of_mem_siblings children he [] (Or.inr ⟨_, hstands⟩)

theorem stands_of_mem_siblings :
    ∀ nodes : List (Dom Name Origin), e ∈ elementsOf nodes → ∀ left,
      StandTogether forest (left ++ nodes) →
        ∃ frame outer children, Stands forest (frame :: outer) children ∧ frame.element = e
  | [] => by
    intro he
    rw [elementsOf_nil] at he
    exact absurd he List.not_mem_nil
  | node :: nodes => by
    intro he left htogether
    rw [elementsOf_cons] at he
    rcases List.mem_append.mp he with he | he
    · exact stands_of_mem_elements node he left nodes htogether
    · refine stands_of_mem_siblings nodes he (left ++ [node]) ?_
      rwa [List.append_assoc, List.singleton_append]

end

theorem exists_stands (h : e ∈ elementsOf forest) :
    ∃ frame outer children, Stands forest (frame :: outer) children ∧ frame.element = e :=
  stands_of_mem_siblings forest h [] (Or.inl rfl)

end Stands

theorem Stands.around_subset {forest : List (Dom Name Origin)}
    {children : List (Dom Name Origin)} (h : Stands forest place children) :
    around place ⊆ elementsOf forest := h.subset.1

end Odudu.Styles
