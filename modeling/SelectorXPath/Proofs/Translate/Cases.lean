import SelectorXPath.Proofs.Selector.WellFormed
import SelectorXPath.Proofs.Translate.Shape

/-! What the translation of each kind of selector is made of, and from that the shape of what a
well-formed list is translated to. -/

namespace SelectorXPath.Translate

open SelectorXPath.Text SelectorXPath.XPath

section

variable {r : Resolver} {around : Surroundings} {axis : Axis}

/-- `:not()` is the negation of what its alternatives say of the element. -/
theorem simpleConditions_not {list : List Complex} {conditions : List Expr} :
    simpleConditions r around (.not list) = .ok conditions ↔
      ∃ alternatives, listConditions r list = .ok alternatives ∧
        conditions = [.negation (Expr.anyOf alternatives)] := by
  simp only [simpleConditions, bind_eq_ok_iff, pure_eq_ok_iff]

/-- `:has()` asks whether a path leads somewhere below the element, whatever the scope around it
is. -/
theorem simpleConditions_has {list : List Complex} {conditions : List Expr} :
    simpleConditions r around (.has list) = .ok conditions ↔
      ∃ paths, listPaths r .descendant list = .ok paths ∧ conditions = [leadsSomewhere paths] := by
  simp only [simpleConditions, bind_eq_ok_iff, pure_eq_ok_iff]

theorem partsConditions_cons {part : Simple} {parts : List Simple}
    {conditions : List (List Expr)} :
    partsConditions r around (part :: parts) = .ok conditions ↔
      ∃ first, simpleConditions r around part = .ok first ∧
        ∃ more, partsConditions r around parts = .ok more ∧ conditions = first :: more := by
  simp only [partsConditions, bind_eq_ok_iff, pure_eq_ok_iff]

/-- A path of one step, narrowed by the conditions of the compound. -/
theorem complexPath_single {compound : Compound} {path : LocationPath} :
    complexPath r axis (.single compound) = .ok path ↔
      ∃ conditions, compoundConditions r compound = .ok conditions ∧
        path = narrow (.elements axis) conditions := by
  simp only [complexPath, bind_eq_ok_iff, pure_eq_ok_iff]

/-- A path goes on from the left by the step of the combinator. -/
theorem complexPath_joined {left : Complex} {combinator : Combinator} {right : Compound}
    {path : LocationPath} :
    complexPath r axis (.joined left combinator right) = .ok path ↔
      ∃ front, complexPath r axis left = .ok front ∧
        ∃ conditions, compoundConditions r right = .ok conditions ∧
          path = narrow (forward front combinator) conditions := by
  simp only [complexPath, bind_eq_ok_iff, pure_eq_ok_iff]

theorem complexConditions_single {compound : Compound} {conditions : List Expr} :
    complexConditions r (.single compound) = .ok conditions ↔
      ∃ own, compoundConditions r compound = .ok own ∧ conditions = own.flatten := by
  simp only [complexConditions, bind_eq_ok_iff, pure_eq_ok_iff]

/-- The compound on the right has to fit the element, and the chain on the left one that the
combinator leads back to. -/
theorem complexConditions_joined {left : Complex} {combinator : Combinator} {right : Compound}
    {conditions : List Expr} :
    complexConditions r (.joined left combinator right) = .ok conditions ↔
      ∃ before, complexConditions r left = .ok before ∧
        ∃ own, compoundConditions r right = .ok own ∧
          conditions = own.flatten ++ [.path ((backward combinator).restrict before)] := by
  simp only [complexConditions, bind_eq_ok_iff, pure_eq_ok_iff]

theorem listPaths_cons {selector : Complex} {list : List Complex} {paths : List LocationPath} :
    listPaths r axis (selector :: list) = .ok paths ↔
      ∃ path, complexPath r axis selector = .ok path ∧
        ∃ more, listPaths r axis list = .ok more ∧ paths = path :: more := by
  simp only [listPaths, bind_eq_ok_iff, pure_eq_ok_iff]

/-- Each selector of a list makes one alternative of all its conditions. -/
theorem listConditions_cons {selector : Complex} {list : List Complex}
    {alternatives : List Expr} :
    listConditions r (selector :: list) = .ok alternatives ↔
      ∃ conditions, complexConditions r selector = .ok conditions ∧
        ∃ more, listConditions r list = .ok more ∧
          alternatives = Expr.allOf conditions :: more := by
  simp only [listConditions, bind_eq_ok_iff, pure_eq_ok_iff]

/-- A list is the union of its paths. -/
theorem listExpr_eq_ok_iff {scope : Scope} {list : SelectorList} {e : Expr} :
    listExpr r scope list = .ok e ↔
      ∃ paths, listPaths r scope.axis list = .ok paths ∧ e = Expr.unionOf (paths.map .path) := by
  simp only [listExpr, bind_eq_ok_iff, pure_eq_ok_iff]

/-- What is returned is the text of that expression. -/
theorem listText_eq_ok_iff {scope : Scope} {list : SelectorList} {text : Text} :
    listText r scope list = .ok text ↔ ∃ e, listExpr r scope list = .ok e ∧ text = e.text := by
  rw [listText]
  cases listExpr r scope list <;> simp [Except.map, eq_comm]

/-- A list that is not empty has a path. -/
theorem listPaths_ne_nil {list : List Complex} {paths : List LocationPath} (hNe : list ≠ [])
    (h : listPaths r axis list = .ok paths) : paths ≠ [] := by
  obtain ⟨selector, list, rfl⟩ := List.exists_cons_of_ne_nil hNe
  obtain ⟨path, -, more, -, rfl⟩ := listPaths_cons.mp h
  simp

theorem listConditions_ne_nil {list : List Complex} {alternatives : List Expr} (hNe : list ≠ [])
    (h : listConditions r list = .ok alternatives) : alternatives ≠ [] := by
  obtain ⟨selector, list, rfl⟩ := List.exists_cons_of_ne_nil hNe
  obtain ⟨conditions, -, more, -, rfl⟩ := listConditions_cons.mp h
  simp

end

section

variable {path : LocationPath}

/-- Predicates that are conditions can be added to a step one after the other. -/
theorem narrow_steps {conditions : List (List Expr)}
    (h : ∀ list ∈ conditions, ∀ e ∈ list, e.IsCondition conditionLevel) :
    ∀ path : LocationPath, path.isStep = true → path.isShaped = true →
      (narrow path conditions).isStep = true ∧ (narrow path conditions).isShaped = true := by
  induction conditions with
  | nil => exact fun _ hStep hShaped => ⟨hStep, hShaped⟩
  | cons list conditions ih =>
      rw [List.forall_mem_cons] at h
      exact fun path hStep hShaped => ih h.2 _ (isStep_restrict list hStep)
        (isShaped_restrict hStep hShaped h.1)

/-- Every combinator ends with a step, to which predicates can be added. -/
theorem isStep_forward (combinator : Combinator) : (forward path combinator).isStep = true := by
  cases combinator <;> rfl

theorem isShaped_forward (combinator : Combinator) (h : path.isShaped = true) :
    (forward path combinator).isShaped = true := by
  cases combinator <;>
    simp [forward, LocationPath.isShaped, LocationPath.isStep, NodeTest.isBare, Expr.shape?, h]

theorem isStep_backward (combinator : Combinator) : (backward combinator).isStep = true := by
  cases combinator <;> rfl

theorem isShaped_backward (combinator : Combinator) : (backward combinator).isShaped = true := by
  cases combinator <;> rfl

/-- A union of paths is put in parentheses, so that it stands wherever a path does. -/
theorem fits_leadsSomewhere {paths : List LocationPath} (hNe : paths ≠ [])
    (h : ∀ path ∈ paths, path.isShaped = true) :
    (leadsSomewhere paths).Fits primaryLevel .nodes := by
  rw [leadsSomewhere.eq_def]
  split
  · exact fits_path (h _ (by simp))
  · exact fits_group (fits_unionOf hNe h)

end

section

variable (r : Resolver)

mutual

/-- What a simple selector is translated to can be used as a predicate. None of it is a number,
which would be taken for a position. -/
theorem isCondition_simpleConditions : ∀ (simple : Simple) {around : Surroundings}
    {conditions : List Expr}, simple.isWellFormed = true →
    simpleConditions r around simple = .ok conditions →
    ∀ e ∈ conditions, e.IsCondition conditionLevel
  | .type name qualifier, around, conditions, _, h => isCondition_typeConditions h
  | .universal qualifier, around, conditions, _, h => isCondition_universalConditions h
  | .class name, around, conditions, _, h => by
      cases h
      exact List.forall_mem_singleton.mpr (isCondition_hasWord (by decide))
  | .id name, around, conditions, _, h => by
      cases h
      exact List.forall_mem_singleton.mpr
        ((fits_path_equals (by decide)).isCondition (by decide))
  | .attribute test, around, conditions, _, h => by
      simp only [simpleConditions, bind_eq_ok_iff, pure_eq_ok_iff] at h
      obtain ⟨condition, hCondition, rfl⟩ := h
      exact List.forall_mem_singleton.mpr (isCondition_attributeCondition hCondition)
  | .pseudo pseudoClass, around, conditions, _, h => isCondition_pseudoConditions h
  | .nth counting positions, around, conditions, _, h => by
      simp only [simpleConditions, bind_eq_ok_iff, pure_eq_ok_iff] at h
      obtain ⟨siblings, hSiblings, rfl⟩ := h
      exact isCondition_positionConditions positions (isShaped_countedSiblings hSiblings)
  | .not list, around, conditions, hWellFormed, h => by
      rw [Simple.isWellFormed, Bool.and_eq_true] at hWellFormed
      obtain ⟨alternatives, hAlternatives, rfl⟩ := simpleConditions_not.mp h
      have hNe := listConditions_ne_nil (by simpa using hWellFormed.1) hAlternatives
      have hEach := isCondition_listConditions list hWellFormed.2 hAlternatives
      exact List.forall_mem_singleton.mpr (isCondition_negation (isCondition_anyOf hNe hEach))
  | .has list, around, conditions, hWellFormed, h => by
      rw [Simple.isWellFormed, Bool.and_eq_true] at hWellFormed
      obtain ⟨paths, hPaths, rfl⟩ := simpleConditions_has.mp h
      have hNe := listPaths_ne_nil (by simpa using hWellFormed.1) hPaths
      have hFits := fits_leadsSomewhere hNe (isShaped_listPaths list hWellFormed.2 hPaths)
      exact List.forall_mem_singleton.mpr ((hFits.mono (by decide)).isCondition (by decide))
  | .contains text, around, conditions, _, h => by
      cases h
      exact List.forall_mem_singleton.mpr (isCondition_search rfl (fits_path rfl))

theorem isCondition_partsConditions : ∀ (parts : List Simple) {around : Surroundings}
    {conditions : List (List Expr)}, partsWellFormed parts = true →
    partsConditions r around parts = .ok conditions →
    ∀ list ∈ conditions, ∀ e ∈ list, e.IsCondition conditionLevel
  | [], around, conditions, _, h => by
      cases h
      simp
  | part :: parts, around, conditions, hWellFormed, h => by
      rw [partsWellFormed, Bool.and_eq_true] at hWellFormed
      obtain ⟨first, hFirst, more, hMore, rfl⟩ := partsConditions_cons.mp h
      rw [List.forall_mem_cons]
      exact ⟨isCondition_simpleConditions part hWellFormed.1 hFirst,
        isCondition_partsConditions parts hWellFormed.2 hMore⟩

/-- All conditions of a compound can be used as predicates. -/
theorem isCondition_compoundConditions : ∀ (compound : Compound)
    {conditions : List (List Expr)}, compound.isWellFormed = true →
    compoundConditions r compound = .ok conditions →
    ∀ list ∈ conditions, ∀ e ∈ list, e.IsCondition conditionLevel
  | ⟨offset, parts⟩, conditions, hWellFormed, h => by
      rw [Compound.isWellFormed, Bool.and_eq_true] at hWellFormed
      rw [compoundConditions] at h
      exact isCondition_partsConditions parts hWellFormed.2 h

/-- The path of a selector can be written down and read again. -/
theorem isShaped_complexPath : ∀ (selector : Complex) {axis : Axis} {path : LocationPath},
    selector.isWellFormed = true → complexPath r axis selector = .ok path →
    path.isStep = true ∧ path.isShaped = true
  | .single compound, axis, path, hWellFormed, h => by
      obtain ⟨conditions, hConditions, rfl⟩ := complexPath_single.mp h
      exact narrow_steps (isCondition_compoundConditions compound hWellFormed hConditions) _ rfl rfl
  | .joined left combinator right, axis, path, hWellFormed, h => by
      rw [Complex.isWellFormed, Bool.and_eq_true] at hWellFormed
      obtain ⟨front, hFront, conditions, hConditions, rfl⟩ := complexPath_joined.mp h
      have hShaped := (isShaped_complexPath left hWellFormed.1 hFront).2
      exact narrow_steps (isCondition_compoundConditions right hWellFormed.2 hConditions) _
        (isStep_forward combinator) (isShaped_forward combinator hShaped)

/-- The conditions of a selector can be used as predicates, among them the path that leads back to
the left. -/
theorem isCondition_complexConditions : ∀ (selector : Complex) {conditions : List Expr},
    selector.isWellFormed = true → complexConditions r selector = .ok conditions →
    ∀ e ∈ conditions, e.IsCondition conditionLevel
  | .single compound, conditions, hWellFormed, h => by
      obtain ⟨own, hOwn, rfl⟩ := complexConditions_single.mp h
      have hEach := isCondition_compoundConditions compound hWellFormed hOwn
      rw [List.forall_mem_flatten]
      exact hEach
  | .joined left combinator right, conditions, hWellFormed, h => by
      rw [Complex.isWellFormed, Bool.and_eq_true] at hWellFormed
      obtain ⟨before, hBefore, own, hOwn, rfl⟩ := complexConditions_joined.mp h
      have hEach := isCondition_compoundConditions right hWellFormed.2 hOwn
      have hPath := isShaped_restrict (isStep_backward combinator) (isShaped_backward combinator)
        (isCondition_complexConditions left hWellFormed.1 hBefore)
      rw [List.forall_mem_append, List.forall_mem_flatten, List.forall_mem_singleton]
      exact ⟨hEach, isCondition_path hPath⟩

theorem isShaped_listPaths : ∀ (list : List Complex) {axis : Axis} {paths : List LocationPath},
    allWellFormed list = true → listPaths r axis list = .ok paths →
    ∀ path ∈ paths, path.isShaped = true
  | [], axis, paths, _, h => by
      cases h
      simp
  | selector :: list, axis, paths, hWellFormed, h => by
      rw [allWellFormed, Bool.and_eq_true] at hWellFormed
      obtain ⟨path, hPath, more, hMore, rfl⟩ := listPaths_cons.mp h
      rw [List.forall_mem_cons]
      exact ⟨(isShaped_complexPath selector hWellFormed.1 hPath).2,
        isShaped_listPaths list hWellFormed.2 hMore⟩

/-- The alternatives of a list can be joined by `or`. -/
theorem isCondition_listConditions : ∀ (list : List Complex) {alternatives : List Expr},
    allWellFormed list = true → listConditions r list = .ok alternatives →
    ∀ e ∈ alternatives, e.IsCondition Operator.and.level
  | [], alternatives, _, h => by
      cases h
      simp
  | selector :: list, alternatives, hWellFormed, h => by
      rw [allWellFormed, Bool.and_eq_true] at hWellFormed
      obtain ⟨conditions, hConditions, more, hMore, rfl⟩ := listConditions_cons.mp h
      rw [List.forall_mem_cons]
      exact ⟨isCondition_allOf (isCondition_complexConditions selector hWellFormed.1 hConditions),
        isCondition_listConditions list hWellFormed.2 hMore⟩

end

end

/-- A well-formed list becomes an expression of node type. -/
theorem fits_listExpr {r : Resolver} {scope : Scope} {list : SelectorList} {e : Expr}
    (hWellFormed : listWellFormed list = true) (h : listExpr r scope list = .ok e) :
    e.Fits Operator.union.level .nodes := by
  rw [listWellFormed, Bool.and_eq_true] at hWellFormed
  obtain ⟨paths, hPaths, rfl⟩ := listExpr_eq_ok_iff.mp h
  exact fits_unionOf (listPaths_ne_nil (by simpa using hWellFormed.1) hPaths)
    (isShaped_listPaths r list hWellFormed.2 hPaths)

end SelectorXPath.Translate
