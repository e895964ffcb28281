import SelectorXPath.Proofs.Translate.Cases

/-! Selectors that agree are translated to the same expressions. Offsets only tell where a selector
is at fault that cannot be translated. -/

namespace SelectorXPath.Translate

open SelectorXPath.Text SelectorXPath.XPath

variable {r : Resolver} {around around' : Surroundings}

/-- The offset of a compound is needed for an error only. -/
theorem siblingConditions_of_type {asking : Text} {conditions : List Expr}
    (h : around.type? = around'.type?) :
    siblingConditions r around asking = .ok conditions ↔
      siblingConditions r around' asking = .ok conditions := by
  rw [siblingConditions, siblingConditions, h]
  split
  · exact Iff.rfl
  · simp

theorem siblingsOfType_of_type {asking : Text} {axis : Axis} {path : LocationPath}
    (h : around.type? = around'.type?) :
    siblingsOfType r around asking axis = .ok path ↔
      siblingsOfType r around' asking axis = .ok path := by
  simp only [siblingsOfType, bind_eq_ok_iff, siblingConditions_of_type h]

theorem pseudoConditions_of_type {pseudoClass : PseudoClass} {conditions : List Expr}
    (h : around.type? = around'.type?) :
    pseudoConditions r around pseudoClass = .ok conditions ↔
      pseudoConditions r around' pseudoClass = .ok conditions := by
  cases pseudoClass with
  | firstOfType | lastOfType | onlyOfType =>
      simp only [pseudoConditions, bind_eq_ok_iff, siblingsOfType_of_type h]
  | _ => exact Iff.rfl

theorem countedSiblings_of_type {counting : Counting} {path : LocationPath}
    (h : around.type? = around'.type?) :
    countedSiblings r around counting = .ok path ↔
      countedSiblings r around' counting = .ok path := by
  cases counting with
  | child | lastChild => exact Iff.rfl
  | ofType | lastOfType => exact siblingsOfType_of_type h

/-- Leaving out offsets leaves the type of a compound as it is. -/
theorem type?_unplaced (offset : Nat) (parts : List Simple) :
    (Surroundings.of ⟨0, partsUnplaced parts⟩).type? = (Surroundings.of ⟨offset, parts⟩).type? := by
  cases parts with
  | nil => rfl
  | cons part parts => cases part <;> rfl

mutual

/-- Where there are conditions they have nothing to do with offsets, by induction over the tree. -/
theorem simpleConditions_unplaced : ∀ (simple : Simple) {around around' : Surroundings}
    {conditions : List Expr}, around.type? = around'.type? →
    (simpleConditions r around simple.unplaced = .ok conditions ↔
      simpleConditions r around' simple = .ok conditions)
  | .type .., _, _, _, _ | .universal .., _, _, _, _ | .class .., _, _, _, _
  | .id .., _, _, _, _ | .attribute .., _, _, _, _ | .contains .., _, _, _, _ => Iff.rfl
  | .pseudo pseudoClass, around, around', conditions, h => pseudoConditions_of_type h
  | .nth counting positions, around, around', conditions, h => by
      simp only [Simple.unplaced, simpleConditions, bind_eq_ok_iff, countedSiblings_of_type h]
  | .not list, around, around', conditions, h => by
      rw [Simple.unplaced, simpleConditions_not, simpleConditions_not]
      simp only [listConditions_unplaced list]
  | .has list, around, around', conditions, h => by
      rw [Simple.unplaced, simpleConditions_has, simpleConditions_has]
      simp only [listPaths_unplaced list]

theorem partsConditions_unplaced : ∀ (parts : List Simple) {around around' : Surroundings}
    {conditions : List (List Expr)}, around.type? = around'.type? →
    (partsConditions r around (partsUnplaced parts) = .ok conditions ↔
      partsConditions r around' parts = .ok conditions)
  | [], _, _, _, _ => Iff.rfl
  | part :: parts, around, around', conditions, h => by
      rw [partsUnplaced, partsConditions_cons, partsConditions_cons]
      simp only [simpleConditions_unplaced part h, partsConditions_unplaced parts h]

theorem compoundConditions_unplaced : ∀ (compound : Compound) {conditions : List (List Expr)},
    (compoundConditions r compound.unplaced = .ok conditions ↔
      compoundConditions r compound = .ok conditions)
  | ⟨offset, parts⟩, conditions => by
      rw [Compound.unplaced, compoundConditions, compoundConditions]
      exact partsConditions_unplaced parts (type?_unplaced offset parts)

theorem complexPath_unplaced : ∀ (selector : Complex) {axis : Axis} {path : LocationPath},
    (complexPath r axis selector.unplaced = .ok path ↔ complexPath r axis selector = .ok path)
  | .single compound, axis, path => by
      rw [Complex.unplaced, complexPath_single, complexPath_single]
      simp only [compoundConditions_unplaced compound]
  | .joined left combinator right, axis, path => by
      rw [Complex.unplaced, complexPath_joined, complexPath_joined]
      simp only [complexPath_unplaced left, compoundConditions_unplaced right]

theorem complexConditions_unplaced : ∀ (selector : Complex) {conditions : List Expr},
    (complexConditions r selector.unplaced = .ok conditions ↔
      complexConditions r selector = .ok conditions)
  | .single compound, conditions => by
      rw [Complex.unplaced, complexConditions_single, complexConditions_single]
      simp only [compoundConditions_unplaced compound]
  | .joined left combinator right, conditions => by
      rw [Complex.unplaced, complexConditions_joined, complexConditions_joined]
      simp only [complexConditions_unplaced left, compoundConditions_unplaced right]

/-- Lists that agree have the same paths. -/
theorem listPaths_unplaced : ∀ (list : List Complex) {axis : Axis} {paths : List LocationPath},
    (listPaths r axis (listUnplaced list) = .ok paths ↔ listPaths r axis list = .ok paths)
  | [], _, _ => Iff.rfl
  | selector :: list, axis, paths => by
      rw [listUnplaced, listPaths_cons, listPaths_cons]
      simp only [complexPath_unplaced selector, listPaths_unplaced list]

theorem listConditions_unplaced : ∀ (list : List Complex) {alternatives : List Expr},
    (listConditions r (listUnplaced list) = .ok alternatives ↔
      listConditions r list = .ok alternatives)
  | [], _ => Iff.rfl
  | selector :: list, alternatives => by
      rw [listUnplaced, listConditions_cons, listConditions_cons]
      simp only [complexConditions_unplaced selector, listConditions_unplaced list]

end

end SelectorXPath.Translate
