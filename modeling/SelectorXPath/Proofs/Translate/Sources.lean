import SelectorXPath.Proofs.Translate.Cases
import SelectorXPath.Proofs.Translate.Faults
import SelectorXPath.Proofs.XPath.Sources

/-! What translation spells out of a selector. The texts of a selector and the namespaces of its
prefixes become string constants. What is spelled out beside them are the names of attributes that
can be written bare, and the numbers that positions are compared with; and where a value is compared
with the end of an attribute, the number of characters in front of its last one. -/

namespace SelectorXPath.Translate

open SelectorXPath.Text SelectorXPath.XPath

/-- The name of an attribute that is spelled out. -/
def Occurrence.bareName? (o : Occurrence) : Option Text :=
  match o.simple with
  | .attribute test =>
    match test.qualifier with
    | .absent | .noNamespace => if isBareName test.name then some test.name else none
    | _ => none
  | _ => none

/-- The numbers that positions `a * k + b` are compared with, and the length that the end of a value
is found by. -/
def Occurrence.numbers (o : Occurrence) : List Nat :=
  match o.simple with
  | .nth _ positions => [positions.a.natAbs, (positions.b - 1).natAbs]
  | .attribute ⟨_, _, some ⟨.ending, value⟩⟩ => [value.length - 1]
  | _ => []

/-- The names of attributes that classes, ids and pseudo-classes speak of. -/
def ownNames : List Text :=
  ["class".toList, "id".toList, "checked".toList, "disabled".toList]

/-- What may be spelled out for these simple selectors. -/
def sources (occurrences : List Occurrence) : Sources where
  IsName name := name ∈ ownNames ∨ ∃ o ∈ occurrences, o.bareName? = some name
  IsNumber n := n ≤ 1 ∨ ∃ o ∈ occurrences, n ∈ o.numbers

section

variable {S : Sources} {path : LocationPath}

/-- The numbers of positions may be spelled out. -/
structure AllowsPositions (S : Sources) (positions : AnPlusB) : Prop where
  step : S.IsNumber positions.a.natAbs
  start : S.IsNumber (positions.b - 1).natAbs
  zero : S.IsNumber 0

theorem draws_count (h : path.Draws S) : (Expr.call .count [.path path]).Draws S :=
  draws_unary h

/-- A number may be spelled out if the sources have it. -/
theorem draws_number {n m : Nat} (h : S.IsNumber m) (hSame : n = m) : (Expr.number n).Draws S := by
  rw [hSame]
  exact h

/-- The number that is taken off a count is spelled without its sign. -/
theorem draws_countLess {k : Int} (hPath : path.Draws S) (hNumber : S.IsNumber k.natAbs) :
    (countLess path k).Draws S := by
  have hCount := draws_count hPath
  have hGroup (operator : Operator) {n : Nat} (hSame : n = k.natAbs) :
      (Expr.group (.binary operator (.call .count [.path path]) (.number n))).Draws S :=
    draws_group (draws_binary hCount (draws_number hNumber hSame))
  rw [countLess]
  split
  · exact hCount
  · split
    · exact hGroup .minus (by omega)
    · exact hGroup .plus (by omega)

theorem draws_isMultiple {e : Expr} {divisor : Nat} (h : e.Draws S)
    (hDivisor : S.IsNumber divisor) (hZero : S.IsNumber 0) : (isMultiple e divisor).Draws S :=
  draws_binary (draws_binary h hDivisor) hZero

/-- The numbers of a condition are those that the positions give. -/
theorem draws_positionConditions {positions : AnPlusB} (hPath : path.Draws S)
    (h : AllowsPositions S positions) :
    ∀ e ∈ positionConditions path positions, e.Draws S := by
  obtain ⟨hStep, hStart, hZero⟩ := h
  have hCount := draws_count hPath
  have hNever : (Expr.call .false []).Draws S := draws_nullary .false
  have hDivisor {n : Nat} (hSame : n = positions.a.natAbs) : S.IsNumber n := hSame ▸ hStep
  rw [positionConditions]
  split
  · split
    · exact List.forall_mem_singleton.mpr hNever
    · exact List.forall_mem_singleton.mpr (draws_binary hCount (draws_number hStart (by omega)))
  · split
    · rw [List.forall_mem_append]
      constructor
      · split
        · exact List.forall_mem_singleton.mpr
            (draws_binary hCount (draws_number hStart (by omega)))
        · simp
      · split
        · simp
        · exact List.forall_mem_singleton.mpr
            (draws_isMultiple (draws_countLess hPath hStart) (hDivisor (by omega)) hZero)
    · split
      · exact List.forall_mem_singleton.mpr hNever
      · rw [List.forall_mem_cons]
        refine ⟨draws_binary hCount (draws_number hStart (by omega)), ?_⟩
        split
        · simp
        · have hDifference : (Expr.group (.binary .minus (.number (positions.b - 1).toNat)
              (.call .count [.path path]))).Draws S :=
            draws_group (draws_binary (draws_number hStart (by omega)) hCount)
          exact List.forall_mem_singleton.mpr
            (draws_isMultiple hDifference (hDivisor (by omega)) hZero)

theorem draws_noneOf (h : path.Draws S) : (noneOf path).Draws S :=
  draws_unary h

/-- Narrowing spells out nothing but the conditions. -/
theorem draws_narrow {conditions : List (List Expr)}
    (h : ∀ list ∈ conditions, ∀ e ∈ list, e.Draws S) :
    ∀ path : LocationPath, path.Draws S → (narrow path conditions).Draws S := by
  induction conditions with
  | nil => exact fun _ hPath => hPath
  | cons list conditions ih =>
      rw [List.forall_mem_cons] at h
      exact fun path hPath => ih h.2 _ (draws_restrict hPath h.1)

/-- The number one is spelled out by the step to the next sibling. -/
theorem draws_forward (combinator : Combinator) (hOne : S.IsNumber 1) (h : path.Draws S) :
    (forward path combinator).Draws S := by
  cases combinator with
  | adjacent => exact draws_filter ⟨h, trivial⟩ hOne
  | _ => exact ⟨h, trivial⟩

theorem draws_backward (combinator : Combinator) (hOne : S.IsNumber 1) :
    (backward combinator).Draws S := by
  cases combinator with
  | adjacent => exact draws_filter trivial hOne
  | _ => trivial

theorem draws_leadsSomewhere {paths : List LocationPath} (h : ∀ path ∈ paths, path.Draws S) :
    (leadsSomewhere paths).Draws S := by
  rw [leadsSomewhere.eq_def]
  split
  · exact h _ (by simp)
  · exact draws_unionOf h

end

section

variable {r : Resolver} {around : Surroundings} {S : Sources} {conditions : List Expr}

/-- The name of a type is never spelled out: it stands in a string constant. -/
theorem draws_typeConditions {name : Text} {qualifier : Qualifier}
    (h : typeConditions r name qualifier = .ok conditions) : ∀ e ∈ conditions, e.Draws S := by
  cases qualifier with
  | absent =>
      rw [typeConditions] at h
      split at h
      · split at h <;> cases h <;> simp [draws_nameIs, draws_localNameIs, draws_namespaceIs]
      · cases h
        simp [draws_nameIs]
  | any | noNamespace =>
      cases h
      simp [draws_localNameIs, draws_namespaceIs]
  | named key =>
      rw [typeConditions] at h
      split at h <;> cases h
      simp [draws_localNameIs, draws_namespaceIs]

theorem draws_universalConditions {qualifier : Qualifier}
    (h : universalConditions r qualifier = .ok conditions) : ∀ e ∈ conditions, e.Draws S := by
  cases qualifier with
  | named key =>
      rw [universalConditions] at h
      split at h <;> cases h
      simp [draws_namespaceIs]
  | _ =>
      cases h
      simp [draws_namespaceIs]

theorem draws_siblingsOfType {asking : Text} {axis : Axis} {path : LocationPath}
    (h : siblingsOfType r around asking axis = .ok path) : path.Draws S := by
  rw [siblingsOfType, bind_eq_ok_iff] at h
  obtain ⟨conditions, hConditions, h⟩ := h
  obtain rfl := pure_eq_ok_iff.mp h
  refine draws_restrict trivial ?_
  rw [siblingConditions] at hConditions
  split at hConditions
  · exact draws_typeConditions hConditions
  · cases hConditions

/-- Pseudo-classes spell out the names of their own attributes. -/
theorem draws_pseudoConditions {pseudoClass : PseudoClass}
    (hNames : ∀ name ∈ ownNames, S.IsName name)
    (h : pseudoConditions r around pseudoClass = .ok conditions) :
    ∀ e ∈ conditions, e.Draws S := by
  have hNone (axis : Axis) (test : NodeTest) (hTest : test.Draws S axis) :
      (noneOf (.step axis test)).Draws S := draws_noneOf hTest
  cases pseudoClass with
  | firstOfType | lastOfType =>
      simp only [pseudoConditions, bind_eq_ok_iff, pure_eq_ok_iff] at h
      obtain ⟨siblings, hSiblings, rfl⟩ := h
      exact List.forall_mem_singleton.mpr (draws_noneOf (draws_siblingsOfType hSiblings))
  | onlyOfType =>
      simp only [pseudoConditions, bind_eq_ok_iff, pure_eq_ok_iff] at h
      obtain ⟨before, hBefore, after, hAfter, rfl⟩ := h
      rw [List.forall_mem_cons, List.forall_mem_singleton]
      exact ⟨draws_noneOf (draws_siblingsOfType hBefore),
        draws_noneOf (draws_siblingsOfType hAfter)⟩
  | onlyChild | empty =>
      cases h
      rw [List.forall_mem_cons, List.forall_mem_singleton]
      exact ⟨hNone _ _ trivial, hNone _ _ trivial⟩
  | firstChild | lastChild | root =>
      cases h
      exact List.forall_mem_singleton.mpr (hNone _ _ trivial)
  | checked | disabled =>
      cases h
      exact List.forall_mem_singleton.mpr (draws_attributeNamed (hNames _ (by simp [ownNames])))
  | enabled =>
      cases h
      exact List.forall_mem_singleton.mpr
        (draws_noneOf (draws_attributeNamed (hNames _ (by simp [ownNames]))))

theorem draws_countedSiblings {counting : Counting} {path : LocationPath}
    (h : countedSiblings r around counting = .ok path) : path.Draws S := by
  cases counting with
  | child | lastChild =>
      cases h
      trivial
  | ofType | lastOfType => exact draws_siblingsOfType h

/-- The end of a value is found by its length less one, which is spelled out. -/
theorem draws_comparisonCondition {node : Expr} {comparison : Comparison} (hNode : node.Draws S)
    (hEnding : comparison.operator = .ending → S.IsNumber (comparison.value.length - 1)) :
    (comparisonCondition node comparison).Draws S := by
  obtain ⟨operator, value⟩ := comparison
  have hNever : Expr.never.Draws S := draws_nullary .false
  cases operator with
  | equals => exact draws_equals hNode
  | includes =>
      rw [comparisonCondition]
      split
      · exact hNever
      · exact draws_hasWord hNode
  | dashMatch =>
      have hEmpty : Expr.nothing.Draws S := trivial
      have hEither : (Expr.anyOf [.equals node (quote value),
          .call .startsWith [node, quote (value ++ ['-'])]]).Draws S := by
        apply draws_joined hEmpty
        rw [List.forall_mem_cons, List.forall_mem_singleton]
        exact ⟨draws_equals hNode, draws_search hNode⟩
      exact hEither
  | beginning | inside =>
      rw [comparisonCondition]
      split
      · exact hNever
      · exact draws_search hNode
  | ending =>
      rw [comparisonCondition]
      split
      · exact hNever
      · have hLength : (Expr.call .stringLength [node]).Draws S := draws_unary hNode
        have hStart : (if value.length - 1 = 0 then Expr.call .stringLength [node]
            else .binary .minus (.call .stringLength [node]) (.number (value.length - 1))).Draws
              S := by
          split
          · exact hLength
          · exact draws_binary hLength (hEnding rfl)
        have hEnd : (Expr.call .substring [node, _]).Draws S :=
          ⟨hNode, hStart, trivial⟩
        exact draws_equals hEnd

/-- The name of an attribute is spelled out if it is bare and has no namespace. -/
theorem draws_attributePath {name : Text} {qualifier : Qualifier} {path : LocationPath}
    (hName : isBareName name = true → qualifier = .absent ∨ qualifier = .noNamespace →
      S.IsName name)
    (h : attributePath r name qualifier = .ok path) : path.Draws S := by
  have hPlain (hQualifier : qualifier = .absent ∨ qualifier = .noNamespace) :
      (plainAttribute name).Draws S := by
    rw [plainAttribute]
    split
    · rename_i hBare
      exact draws_attributeNamed (hName hBare hQualifier)
    · exact draws_attributesWith draws_nameIs
  cases qualifier with
  | absent =>
      cases h
      exact hPlain (Or.inl rfl)
  | noNamespace =>
      cases h
      exact hPlain (Or.inr rfl)
  | any =>
      cases h
      exact draws_attributesWith draws_localNameIs
  | named key =>
      rw [attributePath] at h
      split at h <;> cases h
      apply draws_attributesWith
      apply draws_allOf
      simp [draws_localNameIs, draws_namespaceIs]

end

section

variable {r : Resolver} {all : List Occurrence}

theorem draws_attributeCondition {around : Surroundings} {test : AttributeTest} {condition : Expr}
    (hMem : ⟨around, .attribute test⟩ ∈ all) (h : attributeCondition r test = .ok condition) :
    condition.Draws (sources all) := by
  obtain ⟨name, qualifier, comparison⟩ := test
  rw [attributeCondition] at h
  split at h
  · cases h
  · rename_i path hPath
    have hDraws : path.Draws (sources all) := by
      refine draws_attributePath (fun hBare hQualifier => Or.inr ⟨_, hMem, ?_⟩) hPath
      rcases hQualifier with rfl | rfl <;> exact if_pos hBare
    split at h <;> cases h
    · exact hDraws
    · rename_i comparison hComparison
      have hNode : (Expr.path path).Draws (sources all) := hDraws
      apply draws_comparisonCondition hNode
      intro hEnding
      refine Or.inr ⟨_, hMem, ?_⟩
      obtain ⟨operator, value⟩ := comparison
      obtain rfl : operator = .ending := hEnding
      obtain rfl : _ = some _ := hComparison
      exact List.mem_singleton_self _

/-- Positions that are written in the selector may be spelled out. -/
theorem allowsPositions {around : Surroundings} {counting : Counting} {positions : AnPlusB}
    (hMem : ⟨around, .nth counting positions⟩ ∈ all) :
    AllowsPositions (sources all) positions where
  step := Or.inr ⟨_, hMem, List.mem_cons_self⟩
  start := Or.inr ⟨_, hMem, List.mem_cons_of_mem _ (List.mem_singleton_self _)⟩
  zero := Or.inl (Nat.zero_le 1)

variable (r all)

theorem isNumber_one : (sources all).IsNumber 1 :=
  Or.inl (Nat.le_refl 1)

theorem isName_own : ∀ name ∈ ownNames, (sources all).IsName name :=
  fun _ hName => Or.inl hName

mutual

/-- A simple selector spells out what it is a source of, by induction over the tree. -/
theorem draws_simpleConditions : ∀ (simple : Simple) {around : Surroundings}
    {conditions : List Expr}, simpleOccurrences around simple ⊆ all →
    simpleConditions r around simple = .ok conditions → ∀ e ∈ conditions, e.Draws (sources all)
  | .type name qualifier, around, conditions, _, h => draws_typeConditions h
  | .universal qualifier, around, conditions, _, h => draws_universalConditions h
  | .class name, around, conditions, _, h => by
      cases h
      exact List.forall_mem_singleton.mpr
        (draws_hasWord (draws_attributeNamed (isName_own all _ (by simp [ownNames]))))
  | .id name, around, conditions, _, h => by
      cases h
      exact List.forall_mem_singleton.mpr
        (draws_equals (draws_attributeNamed (isName_own all _ (by simp [ownNames]))))
  | .attribute test, around, conditions, hAll, h => by
      simp only [simpleConditions, bind_eq_ok_iff, pure_eq_ok_iff] at h
      obtain ⟨condition, hCondition, rfl⟩ := h
      have hMem : ⟨around, .attribute test⟩ ∈ all := hAll (List.mem_singleton_self _)
      exact List.forall_mem_singleton.mpr (draws_attributeCondition hMem hCondition)
  | .pseudo pseudoClass, around, conditions, _, h => draws_pseudoConditions (isName_own all) h
  | .nth counting positions, around, conditions, hAll, h => by
      simp only [simpleConditions, bind_eq_ok_iff, pure_eq_ok_iff] at h
      obtain ⟨siblings, hSiblings, rfl⟩ := h
      have hMem : ⟨around, .nth counting positions⟩ ∈ all := hAll (List.mem_singleton_self _)
      exact draws_positionConditions (draws_countedSiblings hSiblings) (allowsPositions hMem)
  | .not list, around, conditions, hAll, h => by
      obtain ⟨alternatives, hAlternatives, rfl⟩ := simpleConditions_not.mp h
      rw [simpleOccurrences] at hAll
      have hEmpty : Expr.nothing.Draws (sources all) := trivial
      have hEach := draws_listConditions list hAll hAlternatives
      exact List.forall_mem_singleton.mpr (draws_unary (draws_joined hEmpty hEach))
  | .has list, around, conditions, hAll, h => by
      obtain ⟨paths, hPaths, rfl⟩ := simpleConditions_has.mp h
      rw [simpleOccurrences] at hAll
      exact List.forall_mem_singleton.mpr
        (draws_leadsSomewhere (draws_listPaths list hAll hPaths))
  | .contains text, around, conditions, _, h => by
      cases h
      have hHere : (Expr.path .here).Draws (sources all) := trivial
      exact List.forall_mem_singleton.mpr (draws_search hHere)

theorem draws_partsConditions : ∀ (parts : List Simple) {around : Surroundings}
    {conditions : List (List Expr)}, partsOccurrences around parts ⊆ all →
    partsConditions r around parts = .ok conditions →
    ∀ list ∈ conditions, ∀ e ∈ list, e.Draws (sources all)
  | [], around, conditions, _, h => by
      cases h
      simp
  | part :: parts, around, conditions, hAll, h => by
      rw [partsOccurrences, List.append_subset] at hAll
      obtain ⟨first, hFirst, more, hMore, rfl⟩ := partsConditions_cons.mp h
      rw [List.forall_mem_cons]
      exact ⟨draws_simpleConditions part hAll.1 hFirst,
        draws_partsConditions parts hAll.2 hMore⟩

theorem draws_compoundConditions : ∀ (compound : Compound) {conditions : List (List Expr)},
    compoundOccurrences compound ⊆ all → compoundConditions r compound = .ok conditions →
    ∀ list ∈ conditions, ∀ e ∈ list, e.Draws (sources all)
  | ⟨offset, parts⟩, conditions, hAll, h => by
      rw [compoundOccurrences] at hAll
      rw [compoundConditions] at h
      exact draws_partsConditions parts hAll h

theorem draws_complexPath : ∀ (selector : Complex) {axis : Axis} {path : LocationPath},
    complexOccurrences selector ⊆ all → complexPath r axis selector = .ok path →
    path.Draws (sources all)
  | .single compound, axis, path, hAll, h => by
      rw [complexOccurrences] at hAll
      obtain ⟨conditions, hConditions, rfl⟩ := complexPath_single.mp h
      have hStart : (LocationPath.elements axis).Draws (sources all) := trivial
      exact draws_narrow (draws_compoundConditions compound hAll hConditions) _ hStart
  | .joined left combinator right, axis, path, hAll, h => by
      rw [complexOccurrences, List.append_subset] at hAll
      obtain ⟨front, hFront, conditions, hConditions, rfl⟩ := complexPath_joined.mp h
      have hForward := draws_forward combinator (isNumber_one all)
        (draws_complexPath left hAll.1 hFront)
      exact draws_narrow (draws_compoundConditions right hAll.2 hConditions) _ hForward

theorem draws_complexConditions : ∀ (selector : Complex) {conditions : List Expr},
    complexOccurrences selector ⊆ all → complexConditions r selector = .ok conditions →
    ∀ e ∈ conditions, e.Draws (sources all)
  | .single compound, conditions, hAll, h => by
      rw [complexOccurrences] at hAll
      obtain ⟨own, hOwn, rfl⟩ := complexConditions_single.mp h
      rw [List.forall_mem_flatten]
      exact draws_compoundConditions compound hAll hOwn
  | .joined left combinator right, conditions, hAll, h => by
      rw [complexOccurrences, List.append_subset] at hAll
      obtain ⟨before, hBefore, own, hOwn, rfl⟩ := complexConditions_joined.mp h
      have hPath : ((backward combinator).restrict before).Draws (sources all) :=
        draws_restrict (draws_backward combinator (isNumber_one all))
          (draws_complexConditions left hAll.1 hBefore)
      rw [List.forall_mem_append, List.forall_mem_flatten, List.forall_mem_singleton]
      exact ⟨draws_compoundConditions right hAll.2 hOwn, hPath⟩

/-- All paths of a list spell out no more than its sources. -/
theorem draws_listPaths : ∀ (list : List Complex) {axis : Axis} {paths : List LocationPath},
    listOccurrences list ⊆ all → listPaths r axis list = .ok paths →
    ∀ path ∈ paths, path.Draws (sources all)
  | [], axis, paths, _, h => by
      cases h
      simp
  | selector :: list, axis, paths, hAll, h => by
      rw [listOccurrences, List.append_subset] at hAll
      obtain ⟨path, hPath, more, hMore, rfl⟩ := listPaths_cons.mp h
      rw [List.forall_mem_cons]
      exact ⟨draws_complexPath selector hAll.1 hPath, draws_listPaths list hAll.2 hMore⟩

theorem draws_listConditions : ∀ (list : List Complex) {alternatives : List Expr},
    listOccurrences list ⊆ all → listConditions r list = .ok alternatives →
    ∀ e ∈ alternatives, e.Draws (sources all)
  | [], alternatives, _, h => by
      cases h
      simp
  | selector :: list, alternatives, hAll, h => by
      rw [listOccurrences, List.append_subset] at hAll
      obtain ⟨conditions, hConditions, more, hMore, rfl⟩ := listConditions_cons.mp h
      rw [List.forall_mem_cons]
      exact ⟨draws_allOf (draws_complexConditions selector hAll.1 hConditions),
        draws_listConditions list hAll.2 hMore⟩

end

end

/-- An expression that a list is translated to spells out nothing of the list but bare names of
attributes and numbers. -/
theorem draws_listExpr {r : Resolver} {scope : Scope} {list : SelectorList} {e : Expr}
    (h : listExpr r scope list = .ok e) : e.Draws (sources (listOccurrences list)) := by
  obtain ⟨paths, hPaths, rfl⟩ := listExpr_eq_ok_iff.mp h
  exact draws_unionOf (draws_listPaths r (listOccurrences list) list (List.Subset.refl _) hPaths)

end SelectorXPath.Translate
