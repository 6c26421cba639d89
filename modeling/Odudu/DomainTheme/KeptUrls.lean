import Odudu.DomainTheme.HidingValues

/-!
# Urls of an accepted stylesheet

Every `url()` in the values of an accepted declaration is one of a tenant's asset
(`urls_of_declaration`).
-/

set_option autoImplicit false

namespace Odudu.DomainTheme.Stylesheets

open Texts Styles

section Urls

variable (platform : CssPlatform)

def isUrl (value : Utf16) : Prop := platform.toLowerCase (decodeEscapes value) = ofAscii "url"

instance : DecidablePred (isUrl platform) := fun _ ↦ inferInstanceAs (Decidable (_ = _))

mutual

/-- The arguments of each `url()` of a node. -/
def ValueNode.urls : ValueNode → List (List ValueNode)
  | .function value _ nodes => if isUrl platform value then [nodes] else urlsOf nodes
  | .space | .comment | .div _ | .word _ | .string _ _ | .unicodeRange _ => []

def urlsOf : List ValueNode → List (List ValueNode)
  | [] => []
  | node :: nodes => node.urls ++ urlsOf nodes

end

/-- The argument of a `url()` names an asset. -/
def IsAsset (isAssetUrl : Option (Utf16 → Bool)) (nodes : List ValueNode) : Prop :=
  isAssetUrl.any (· (urlArgument platform nodes)) = true

variable {platform} {isAssetUrl : Option (Utf16 → Bool)} {nodes : List ValueNode}

theorem mem_urlsOf {args : List ValueNode} :
    args ∈ urlsOf platform nodes ↔ ∃ node ∈ nodes, args ∈ node.urls platform := by
  induction nodes with
  | nil => simp [urlsOf]
  | cons _ _ ih => simp [urlsOf, ih]

/-- A function that is a call of something has no `url()` but itself. -/
theorem urls_of_call {ctx : ValueContext} {value : Utf16} {unclosed : Bool}
    (h : checkCall platform ctx value nodes = []) :
    ∀ args ∈ (ValueNode.function value unclosed nodes).urls platform,
      IsAsset platform ctx.isAssetUrl args := by
  intro args hargs
  rw [ValueNode.urls] at hargs
  unfold checkCall at h
  dsimp only at h
  split at h
  · -- Of the functions that are like `url()` only `url()` is let through.
    unfold checkUrl at h
    dsimp only at h
    split at h
    · rename_i hfine
      obtain ⟨hurl, -, -, hasset⟩ := hfine
      rw [if_pos (show isUrl platform value from hurl), List.mem_singleton] at hargs
      rw [hargs]
      exact hasset
    · cases h
  · rename_i hother
    have hnot : ¬isUrl platform value := by
      intro hurl
      refine hother ?_
      rw [show platform.toLowerCase (decodeEscapes value) = ofAscii "url" from hurl]
      decide
    rw [if_neg hnot] at hargs
    split at h
    · cases h
    · split at h
      · split at h
        · simp only [urlsOf, ValueNode.urls, List.append_nil, List.not_mem_nil] at hargs
        · cases h
      · cases h

mutual

variable {ctx : ValueContext}

theorem urls_of_node {depth : ℕ} {inColour : Bool} :
    ∀ (node : ValueNode), checkNode platform ctx depth inColour node = [] →
      ∀ args ∈ node.urls platform, IsAsset platform ctx.isAssetUrl args
  | .function value unclosed nodes, h => by
    rw [checkNode] at h
    split at h
    · cases h
    · split at h
      · rename_i hcolour
        have hnot : ¬isUrl platform value := by
          intro hurl
          unfold isColourFunction at hcolour
          rw [show platform.toLowerCase (decodeEscapes value) = ofAscii "url" from hurl] at hcolour
          exact absurd hcolour (by simp [show ofAscii "url" ∈ URL_LIKE by decide])
        rw [ValueNode.urls, if_neg hnot]
        exact urls_of_nodes nodes h
      · exact urls_of_call h
  | .space, _ | .comment, _ | .div _, _ | .word _, _ | .string _ _, _ | .unicodeRange _, _ => by
    rw [ValueNode.urls]
    exact fun args hargs ↦ absurd hargs List.not_mem_nil

theorem urls_of_nodes {depth : ℕ} {inColour : Bool} :
    ∀ (nodes : List ValueNode), checkNodes platform ctx depth inColour nodes = [] →
      ∀ args ∈ urlsOf platform nodes, IsAsset platform ctx.isAssetUrl args
  | [], _ => by
    rw [urlsOf]
    exact fun args hargs ↦ absurd hargs List.not_mem_nil
  | node :: nodes, h => by
    rw [checkNodes, List.append_eq_nil_iff] at h
    rw [urlsOf]
    exact List.forall_mem_append.mpr ⟨urls_of_node node h.1, urls_of_nodes nodes h.2⟩

end

/-! ### Values with a grammar of their own -/

/-- Where no node that counts is a function there is no `url()`. -/
theorem urls_of_plain
    (h : ∀ node ∈ meaningful nodes, node.urls platform = []) : urlsOf platform nodes = [] := by
  refine List.eq_nil_iff_forall_not_mem.mpr fun args hargs ↦ ?_
  obtain ⟨node, hnode, hargs⟩ := mem_urlsOf.mp hargs
  by_cases hmeaningful : node.isMeaningful = true
  · rw [h node (List.mem_filter.mpr ⟨hnode, hmeaningful⟩)] at hargs
    exact List.not_mem_nil hargs
  · cases node with
    | space | comment =>
      rw [ValueNode.urls] at hargs
      exact List.not_mem_nil hargs
    | div | word | string | unicodeRange | function => exact hmeaningful rfl

theorem urls_of_onlyWord (h : onlyWord nodes ≠ none) : urlsOf platform nodes = [] := by
  refine urls_of_plain fun node hnode ↦ ?_
  unfold onlyWord at h
  split at h
  · rename_i value heq
    rw [heq, List.mem_singleton] at hnode
    rw [hnode, ValueNode.urls]
  · exact absurd rfl h

theorem urls_of_oneOf {allowed : List Utf16}
    (h : oneOf platform allowed nodes = []) : urlsOf platform nodes = [] :=
  urls_of_onlyWord fun hnone ↦ by simp [oneOf, hnone] at h

theorem urls_of_opacity (h : opacity platform nodes = []) :
    urlsOf platform nodes = [] :=
  urls_of_onlyWord fun hnone ↦ by simp [opacity, hnone] at h

theorem urls_of_content (h : content platform nodes = []) :
    urlsOf platform nodes = [] := by
  refine urls_of_plain fun node hnode ↦ ?_
  unfold content at h
  dsimp only at h
  split at h
  · rename_i hnodes
    rw [hnodes, List.mem_singleton] at hnode
    rw [hnode, ValueNode.urls]
  · rename_i hnodes
    rw [hnodes, List.mem_singleton] at hnode
    rw [hnode, ValueNode.urls]
  · rw [if_neg Bool.false_ne_true] at h
    cases h

theorem urls_of_fontNames :
    ∀ {names names' : List Utf16} {name : Utf16},
      fontNames platform names name nodes = .ok names' →
        ∀ node ∈ nodes, node.urls platform = [] := by
  induction nodes with
  | nil => exact fun _ node hnode ↦ absurd hnode List.not_mem_nil
  | cons _ _ ih =>
    intro names names' name h
    rw [List.forall_mem_cons]
    unfold fontNames at h
    dsimp only at h
    split at h
    · split at h
      · exact ⟨by rw [ValueNode.urls], ih h⟩
      · cases h
    · exact ⟨by rw [ValueNode.urls], ih h⟩
    · split at h
      · cases h
      · exact ⟨by rw [ValueNode.urls], ih h⟩
    · cases h

theorem urls_of_fontFamily (h : fontFamily platform nodes = []) :
    urlsOf platform nodes = [] := by
  unfold fontFamily at h
  split at h
  · cases h
  · rename_i hnames
    exact urls_of_plain (urls_of_fontNames hnames)

/-- Every `url()` of an accepted declaration is an asset's. -/
theorem urls_of_declaration {mayHide : Bool} {scheme : Scheme} {decl : Declaration}
    (h : declarationProblems platform isAssetUrl mayHide scheme decl = []) :
    ∀ args ∈ urlsOf platform (platform.valueParser decl.value),
      IsAsset platform isAssetUrl args := by
  have hvalue := (declaration_fine h).value
  have hnone : urlsOf platform (platform.valueParser decl.value) = [] →
      ∀ args ∈ urlsOf platform (platform.valueParser decl.value),
        IsAsset platform isAssetUrl args := by
    intro hnone args hargs
    rw [hnone] at hargs
    exact absurd hargs List.not_mem_nil
  unfold checkValue at hvalue
  extract_lets nodes at hvalue
  split at hvalue
  · cases hvalue
  split at hvalue
  · exact hnone (urls_of_oneOf hvalue)
  split at hvalue
  · exact hnone (urls_of_oneOf hvalue)
  split at hvalue
  · exact hnone (urls_of_oneOf hvalue)
  split at hvalue
  · exact hnone (urls_of_oneOf hvalue)
  split at hvalue
  · exact hnone (urls_of_fontFamily hvalue)
  split at hvalue
  · exact hnone (urls_of_content hvalue)
  split at hvalue
  · exact hnone (urls_of_opacity hvalue)
  · exact urls_of_nodes nodes hvalue

end Urls

end Odudu.DomainTheme.Stylesheets
