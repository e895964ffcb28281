import SelectorXPath.Proofs.Translate.Chain

/-! The conditions of a selector, which lead from the right to the left, hold at an element exactly
when a chain ends in it that may begin at any element of the document. -/

namespace SelectorXPath.Translate

open SelectorXPath.Text SelectorXPath.XPath

variable {r : Resolver} {d : Document} {n : Node}

/-- The step back of a combinator leads to the elements to which the context node lies so. -/
theorem mem_nodes_backward {combinator : Combinator} {q : Address} :
    n ∈ (backward combinator).nodes d (.tree q) ↔
      ∃ p, n = .tree p ∧ d.HasElement p ∧ combinator.Relates d p q := by
  cases combinator with
  | adjacent =>
      rw [backward, LocationPath.elements, mem_nodes_first_step]
      exact head?_reach_precedingSibling
  | _ =>
      rw [backward, LocationPath.elements, mem_nodes_step]
      exact mem_reach_any (by decide)

/-- Every element is below the document. -/
theorem chain_of_satisfies {compound : Compound} {q : Address} (hElement : d.HasElement q) :
    Chain r d .descendants (.tree []) (.single compound) q ↔ Satisfies r d compound q := by
  constructor
  · intro hChain
    cases hChain with
    | single _ _ hSatisfies => exact hSatisfies
  · exact fun hSatisfies => .single hElement hElement.isBelow_nil hSatisfies

/-- The conditions of a selector hold of an element at the end of one of its chains, by induction on
the chain from the right. -/
theorem holds_complexConditions : ∀ (selector : Complex) {conditions : List Expr} {q : Address},
    selector.isWellFormed = true → complexConditions r selector = .ok conditions →
    d.HasElement q →
    ((∀ e ∈ conditions, e.holds d (.tree q) = true) ↔
      Chain r d .descendants (.tree []) selector q)
  | .single compound, conditions, q, _, h, hElement => by
      obtain ⟨own, hOwn, rfl⟩ := complexConditions_single.mp h
      rw [chain_of_satisfies hElement, satisfies_iff hOwn, List.forall_mem_flatten]
  | .joined left combinator right, conditions, q, hWellFormed, h, hElement => by
      rw [Complex.isWellFormed, Bool.and_eq_true] at hWellFormed
      obtain ⟨before, hBefore, own, hOwn, rfl⟩ := complexConditions_joined.mp h
      have hEach := isCondition_complexConditions r left hWellFormed.1 hBefore
      rw [List.forall_mem_append, List.forall_mem_flatten, List.forall_mem_singleton, holds_path]
      simp only [mem_nodes_restrict hEach, mem_nodes_backward]
      constructor
      · rintro ⟨hHold, _, ⟨p, rfl, hFront, hRelates⟩, hFits⟩
        have hChain := (holds_complexConditions left hWellFormed.1 hBefore hFront).mp hFits
        exact .joined hChain hElement hRelates ((satisfies_iff hOwn).mpr hHold)
      · intro hChain
        cases hChain with
        | @joined _ _ _ p _ hLeft _ hRelates hSatisfies =>
            have hFits := (holds_complexConditions left hWellFormed.1 hBefore hLeft.hasElement).mpr
              hLeft
            exact ⟨(satisfies_iff hOwn).mp hSatisfies, .tree p,
              ⟨p, rfl, hLeft.hasElement, hRelates⟩, hFits⟩

/-- One of the alternatives holds at an element if and only if the list selects it from the
document. -/
theorem holds_listConditions : ∀ (list : List Complex) {alternatives : List Expr} {q : Address},
    allWellFormed list = true → listConditions r list = .ok alternatives → d.HasElement q →
    ((∃ e ∈ alternatives, e.holds d (.tree q) = true) ↔
      Selects r d .descendants (.tree []) list q)
  | [], alternatives, q, _, h, _ => by
      cases h
      simp [Selects]
  | selector :: list, alternatives, q, hWellFormed, h, hElement => by
      rw [allWellFormed, Bool.and_eq_true] at hWellFormed
      obtain ⟨conditions, hConditions, more, hMore, rfl⟩ := listConditions_cons.mp h
      have hFirst := holds_complexConditions selector hWellFormed.1 hConditions hElement
      have hRest := holds_listConditions list hWellFormed.2 hMore hElement
      simp only [List.mem_cons, exists_eq_or_imp, holds_allOf, hFirst, hRest, Selects]

section

variable {axis : Axis}

/-- A selector that has a path has conditions, because both ask for the same names. -/
theorem complexConditions_of_complexPath : ∀ (selector : Complex) {path : LocationPath},
    complexPath r axis selector = .ok path →
    ∃ conditions, complexConditions r selector = .ok conditions
  | .single compound, path, h => by
      obtain ⟨own, hOwn, -⟩ := complexPath_single.mp h
      exact ⟨_, complexConditions_single.mpr ⟨own, hOwn, rfl⟩⟩
  | .joined left combinator right, path, h => by
      obtain ⟨front, hFront, own, hOwn, -⟩ := complexPath_joined.mp h
      obtain ⟨before, hBefore⟩ := complexConditions_of_complexPath left hFront
      exact ⟨_, complexConditions_joined.mpr ⟨before, hBefore, own, hOwn, rfl⟩⟩

/-- A list that has paths has conditions. -/
theorem listConditions_of_listPaths : ∀ (list : List Complex) {paths : List LocationPath},
    listPaths r axis list = .ok paths → ∃ alternatives, listConditions r list = .ok alternatives
  | [], _, _ => ⟨[], rfl⟩
  | selector :: list, paths, h => by
      obtain ⟨path, hPath, more, hMore, -⟩ := listPaths_cons.mp h
      obtain ⟨conditions, hConditions⟩ := complexConditions_of_complexPath selector hPath
      obtain ⟨alternatives, hAlternatives⟩ := listConditions_of_listPaths list hMore
      exact ⟨_, listConditions_cons.mpr ⟨conditions, hConditions, alternatives, hAlternatives, rfl⟩⟩

end

/-- The condition inside of `:not()`, as one expression. -/
theorem holds_anyOf_listConditions {list : SelectorList} {alternatives : List Expr} {q : Address}
    (hWellFormed : listWellFormed list = true) (h : listConditions r list = .ok alternatives)
    (hElement : d.HasElement q) :
    (Expr.anyOf alternatives).holds d (.tree q) = true ↔
      Selects r d .descendants (.tree []) list q := by
  rw [listWellFormed, Bool.and_eq_true] at hWellFormed
  rw [holds_anyOf, holds_listConditions list hWellFormed.2 h hElement]

end SelectorXPath.Translate
