import SelectorXPath.Proofs.XPath.Value

/-! How the nodes that an axis leads to lie to the node that it starts from, and which of them is
the nearest. -/

namespace SelectorXPath

namespace Document

/-- The second address lies below the first. -/
def IsBelow (p q : Address) : Prop :=
  ∃ path, path ≠ [] ∧ q = path ++ p

/-- The second address is that of a child of the first. -/
def IsChild (p q : Address) : Prop :=
  ∃ i, q = i :: p

/-- The addresses have the same parent, and the second comes later. -/
def IsLaterSibling (p q : Address) : Prop :=
  ∃ parent i j, p = i :: parent ∧ q = j :: parent ∧ i < j

/-- Of the siblings behind the first address, the second is the first element. -/
def IsNextSibling (d : Document) (p q : Address) : Prop :=
  IsLaterSibling p q ∧ ∀ m, IsLaterSibling p m → IsLaterSibling m q → ¬ d.HasElement m

variable {d : Document} {p q : Address}

/-- Siblings differ in their innermost position. -/
theorem isLaterSibling_cons {i j : Nat} : IsLaterSibling (i :: p) (j :: p) ↔ i < j := by
  constructor
  · rintro ⟨parent, i', j', hFirst, hSecond, hLess⟩
    cases hFirst
    cases hSecond
    exact hLess
  · exact fun hLess => ⟨p, i, j, rfl, rfl, hLess⟩

/-- The document itself has no siblings. -/
theorem not_isLaterSibling_nil : ¬ IsLaterSibling [] q := by
  rintro ⟨parent, i, j, hFirst, -⟩
  cases hFirst

theorem not_isLaterSibling_to_nil : ¬ IsLaterSibling p [] := by
  rintro ⟨parent, i, j, -, hSecond, -⟩
  cases hSecond

theorem HasElement.isSome (h : d.HasElement p) : (d.tree? p).isSome = true := by
  obtain ⟨tree, hTree, -⟩ := h
  simp [hTree]

/-- An element is one of the children of its parent. -/
theorem HasElement.lt_length {i : Nat} (h : d.HasElement (i :: p)) :
    i < (d.children p).length := by
  obtain ⟨tree, hTree, -⟩ := h
  exact (List.getElem?_eq_some_iff.mp hTree).1

/-- Every element lies below the document. -/
theorem HasElement.isBelow_nil (h : d.HasElement p) : IsBelow [] p := by
  refine ⟨p, ?_, (List.append_nil p).symm⟩
  rintro rfl
  obtain ⟨tree, hTree, -⟩ := h
  cases hTree

/-- Where an element stands, there is an address of a child. -/
theorem mem_childAddresses (h : d.HasElement q) : q ∈ d.childAddresses p ↔ IsChild p q := by
  rw [childAddresses, List.mem_map]
  constructor
  · rintro ⟨i, -, rfl⟩
    exact ⟨i, rfl⟩
  · rintro ⟨i, rfl⟩
    exact ⟨i, List.mem_range.mpr h.lt_length, rfl⟩

/-- The siblings that the axis goes through are the later ones. -/
theorem mem_siblingsAfter (h : d.HasElement q) : q ∈ d.siblingsAfter p ↔ IsLaterSibling p q := by
  cases p with
  | nil => simp [siblingsAfter, not_isLaterSibling_nil]
  | cons i p =>
      rw [siblingsAfter, List.mem_map]
      constructor
      · rintro ⟨j, hRange, rfl⟩
        exact isLaterSibling_cons.mpr (List.mem_range'_1.mp hRange).1
      · rintro ⟨parent, i', j, hFirst, rfl, hLess⟩
        obtain ⟨rfl, rfl⟩ := List.cons.inj hFirst
        have hLength := h.lt_length
        exact ⟨j, List.mem_range'_1.mpr (by omega), rfl⟩

theorem mem_siblingsBefore : q ∈ siblingsBefore p ↔ IsLaterSibling q p := by
  cases p with
  | nil => simp [siblingsBefore, not_isLaterSibling_to_nil]
  | cons i p =>
      rw [siblingsBefore, List.mem_map]
      constructor
      · rintro ⟨j, hRange, rfl⟩
        rw [List.mem_reverse, List.mem_range] at hRange
        exact isLaterSibling_cons.mpr hRange
      · rintro ⟨parent, j, i', rfl, hSecond, hLess⟩
        obtain ⟨rfl, rfl⟩ := List.cons.inj hSecond
        exact ⟨j, List.mem_reverse.mpr (List.mem_range.mpr hLess), rfl⟩

/-- The ancestors of an address are those that it lies below. -/
theorem mem_ancestors : p ∈ ancestors q ↔ IsBelow p q := by
  induction q with
  | nil =>
      constructor
      · intro h
        cases h
      · rintro ⟨path, hPath, hNil⟩
        exact absurd (List.append_eq_nil_iff.mp hNil.symm).1 hPath
  | cons i q ih =>
      rw [ancestors, List.mem_cons, ih]
      constructor
      · rintro (rfl | ⟨path, hPath, rfl⟩)
        · exact ⟨[i], by simp, rfl⟩
        · exact ⟨i :: path, by simp, rfl⟩
      · rintro ⟨path, hPath, hSplit⟩
        obtain ⟨j, path, rfl⟩ := List.exists_cons_of_ne_nil hPath
        obtain ⟨-, rfl⟩ := List.cons.inj hSplit
        by_cases hNil : path = []
        · exact Or.inl (by simp [hNil])
        · exact Or.inr ⟨path, hNil, rfl⟩

end Document

open Document

namespace XPath

/-- How two addresses lie to each other if an axis leads from the first to the second. -/
def Axis.Relates : Axis → Address → Address → Prop
  | .child, p, q => IsChild p q
  | .descendant, p, q => IsBelow p q
  | .descendantOrSelf, p, q => q = p ∨ IsBelow p q
  | .parent, p, q => IsChild q p
  | .ancestor, p, q => IsBelow q p
  | .followingSibling, p, q => IsLaterSibling p q
  | .precedingSibling, p, q => IsLaterSibling q p
  | .attribute, _, _ => False

variable {d : Document} {p q : Address} {n : Node}

theorem tree_mem_map {list : List Address} : Node.tree q ∈ list.map .tree ↔ q ∈ list := by
  simp

/-- Each axis leads from one address to another if they lie to each other as it says. -/
theorem tree_mem_nodes_iff {axis : Axis} (h : d.HasElement q) :
    .tree q ∈ axis.nodes d (.tree p) ↔ axis.Relates p q := by
  cases axis with
  | child =>
      rw [Axis.nodes, tree_mem_map, mem_childAddresses h]
      rfl
  | descendant =>
      rw [Axis.nodes, tree_mem_map, mem_descendants, and_iff_left h.isSome]
      rfl
  | descendantOrSelf =>
      rw [Axis.nodes, List.mem_cons, tree_mem_map, mem_descendants, and_iff_left h.isSome,
        Node.tree.injEq]
      rfl
  | parent =>
      cases p with
      | nil => simp [Axis.nodes, Axis.Relates, IsChild]
      | cons i p => simp [Axis.nodes, Axis.Relates, IsChild, eq_comm]
  | ancestor =>
      rw [Axis.nodes, tree_mem_map, mem_ancestors]
      rfl
  | followingSibling =>
      rw [Axis.nodes, tree_mem_map, mem_siblingsAfter h]
      rfl
  | precedingSibling =>
      rw [Axis.nodes, tree_mem_map, mem_siblingsBefore]
      rfl
  | «attribute» => simp [Axis.nodes, Axis.Relates]

/-- Among trees only elements pass as any node. -/
theorem passes_any_iff : NodeTest.any.passes d (.tree q) = true ↔ d.HasElement q := by
  rw [NodeTest.passes, HasElement]
  cases d.tree? q <;> simp

/-- A step leads to the elements that lie as its axis says. -/
theorem mem_reach_any {axis : Axis} (hAxis : axis ≠ .attribute) :
    n ∈ reach d axis .any (.tree p) ↔
      ∃ q, n = .tree q ∧ d.HasElement q ∧ axis.Relates p q := by
  rw [reach, List.mem_filter, Bool.and_eq_true]
  constructor
  · rintro ⟨hNode, hPrincipal, hPasses⟩
    cases n with
    | tree q =>
        have hElement := passes_any_iff.mp hPasses
        exact ⟨q, rfl, hElement, (tree_mem_nodes_iff hElement).mp hNode⟩
    | «attribute» => cases axis <;> first | exact absurd rfl hAxis | cases hPrincipal
  · rintro ⟨q, rfl, hElement, hRelates⟩
    refine ⟨(tree_mem_nodes_iff hElement).mpr hRelates, ?_, passes_any_iff.mpr hElement⟩
    cases axis <;> first | exact absurd rfl hAxis | rfl

/-- Searched from the end, the last number below a bound that has a property is found. -/
theorem find?_reverse_range {f : Nat → Bool} {n i : Nat} :
    (List.range n).reverse.find? f = some i ↔
      f i = true ∧ i < n ∧ ∀ j, i < j → j < n → f j = false := by
  induction n with
  | zero => simp
  | succ n ih =>
      rw [List.range_succ, List.reverse_append, List.reverse_singleton, List.singleton_append,
        List.find?_cons]
      cases hLast : f n with
      | true =>
          constructor
          · rintro ⟨rfl⟩
            exact ⟨hLast, Nat.lt_succ_self _, fun j hj hBound => by omega⟩
          · rintro ⟨-, hLess, hNone⟩
            by_cases hSame : i = n
            · rw [hSame]
            · rw [hNone n (by omega) (by omega)] at hLast
              cases hLast
      | false =>
          rw [ih]
          constructor
          · rintro ⟨hTrue, hLess, hNone⟩
            refine ⟨hTrue, by omega, fun j hj hBound => ?_⟩
            by_cases hSame : j = n
            · rw [hSame, hLast]
            · exact hNone j hj (by omega)
          · rintro ⟨hTrue, hLess, hNone⟩
            have hNe : i ≠ n := by
              rintro rfl
              rw [hTrue] at hLast
              cases hLast
            exact ⟨hTrue, by omega, fun j hj hBound => hNone j hj (by omega)⟩

/-- The first element among siblings. -/
theorem head?_siblings {axis : Axis} (hAxis : ∀ q, axis.isPrincipal (.tree q) = true)
    (positions : List Nat) (parent : Address) :
    (((positions.map (· :: parent)).map Node.tree).filter fun m =>
      axis.isPrincipal m && NodeTest.any.passes d m).head? =
      (positions.find? fun j => NodeTest.any.passes d (.tree (j :: parent))).map
        fun j => .tree (j :: parent) := by
  rw [List.head?_filter, List.map_map, List.find?_map]
  congr 2
  funext j
  simp [hAxis]

theorem not_passes_any_iff : NodeTest.any.passes d (.tree q) = false ↔ ¬ d.HasElement q := by
  rw [← passes_any_iff, Bool.not_eq_true]

/-- The nearest element behind a node is the next one. -/
theorem head?_reach_followingSibling :
    (reach d .followingSibling .any (.tree p)).head? = some n ↔
      ∃ q, n = .tree q ∧ d.HasElement q ∧ d.IsNextSibling p q := by
  cases p with
  | nil => simp [reach, Axis.nodes, siblingsAfter, IsNextSibling, not_isLaterSibling_nil]
  | cons i parent =>
      rw [reach, Axis.nodes, siblingsAfter, head?_siblings fun _ => rfl, Option.map_eq_some_iff]
      simp only [List.find?_range'_eq_some, passes_any_iff, Bool.not_eq_true', not_passes_any_iff]
      constructor
      · rintro ⟨j, ⟨hElement, hRange, hNone⟩, rfl⟩
        have hLess := (List.mem_range'_1.mp hRange).1
        refine ⟨j :: parent, rfl, hElement, isLaterSibling_cons.mpr hLess, ?_⟩
        rintro m ⟨parent', i', k, hFirst, rfl, hAfter⟩ hBefore
        obtain ⟨rfl, rfl⟩ := List.cons.inj hFirst
        exact hNone k hAfter (isLaterSibling_cons.mp hBefore)
      · rintro ⟨q, rfl, hElement, ⟨parent', i', j, hFirst, rfl, hLess⟩, hNone⟩
        obtain ⟨rfl, rfl⟩ := List.cons.inj hFirst
        have hLength := hElement.lt_length
        refine ⟨j, ⟨hElement, List.mem_range'_1.mpr (by omega), ?_⟩, rfl⟩
        intro k hAfter hBefore
        exact hNone _ (isLaterSibling_cons.mpr hAfter) (isLaterSibling_cons.mpr hBefore)

/-- The nearest element in front of a node is the one whose next element the node is. -/
theorem head?_reach_precedingSibling :
    (reach d .precedingSibling .any (.tree p)).head? = some n ↔
      ∃ q, n = .tree q ∧ d.HasElement q ∧ d.IsNextSibling q p := by
  cases p with
  | nil => simp [reach, Axis.nodes, siblingsBefore, IsNextSibling, not_isLaterSibling_to_nil]
  | cons i parent =>
      rw [reach, Axis.nodes, siblingsBefore, head?_siblings fun _ => rfl, Option.map_eq_some_iff]
      simp only [find?_reverse_range, passes_any_iff, not_passes_any_iff]
      constructor
      · rintro ⟨j, ⟨hElement, hLess, hNone⟩, rfl⟩
        refine ⟨j :: parent, rfl, hElement, isLaterSibling_cons.mpr hLess, ?_⟩
        rintro m ⟨parent', j', k, hFirst, rfl, hAfter⟩ hBefore
        obtain ⟨rfl, rfl⟩ := List.cons.inj hFirst
        exact hNone k hAfter (isLaterSibling_cons.mp hBefore)
      · rintro ⟨q, rfl, hElement, ⟨parent', j, i', rfl, hSecond, hLess⟩, hNone⟩
        obtain ⟨rfl, rfl⟩ := List.cons.inj hSecond
        refine ⟨j, ⟨hElement, hLess, ?_⟩, rfl⟩
        intro k hAfter hBefore
        exact hNone _ (isLaterSibling_cons.mpr hAfter) (isLaterSibling_cons.mpr hBefore)

end XPath

end SelectorXPath
