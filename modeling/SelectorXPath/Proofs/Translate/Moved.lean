import SelectorXPath.Proofs.Selector.Joined
import SelectorXPath.Proofs.Translate.Faults
import SelectorXPath.Proofs.Translate.Unplaced

/-! Selectors further to the right are translated to the same text, or their translation fails in
the same way further to the right. Only a compound that lacks its type is at fault where it stands.
-/

namespace SelectorXPath.Translate

open SelectorXPath.Text SelectorXPath.XPath

variable {n : Nat} {r : Resolver}

/-- The same simple selector, in a compound further to the right. -/
structure Occurrence.Moved (n : Nat) (o o' : Occurrence) : Prop where
  simple_eq : o'.simple = o.simple
  type?_eq : o'.around.type? = o.around.type?
  offset_eq : o'.around.offset = o.around.offset + n

/-- A prefix that is bound to nothing is at fault wherever it stands. -/
theorem qualifierFault?_moved (n : Nat) (r : Resolver) (qualifier : Qualifier) :
    (qualifierFault? r qualifier).map (SelectorError.moved n) = qualifierFault? r qualifier := by
  cases qualifier with
  | named key =>
      rw [qualifierFault?, Resolver.namespaceOf]
      split
      · rfl
      · split <;> rfl
  | _ => rfl

/-- A simple selector further to the right has the same fault, further to the right. -/
theorem Occurrence.Moved.fault? {o o' : Occurrence} (h : o.Moved n o') :
    o'.fault? r = (o.fault? r).map (SelectorError.moved n) := by
  have hLack : o'.lack? = o.lack?.map (SelectorError.moved n) := by
    rw [lack?, lack?, h.simple_eq, h.type?_eq]
    split
    · rw [h.offset_eq]
      rfl
    · rfl
  have hQualifier : o'.qualifier = o.qualifier := by
    rw [qualifier, qualifier, h.simple_eq, h.type?_eq]
  rw [Occurrence.fault?, Occurrence.fault?, hLack, hQualifier, Option.map_or,
    qualifierFault?_moved]

/-- The first fault of simple selectors further to the right is the same, further to the right. -/
theorem firstFault?_moved {os os' : List Occurrence}
    (h : List.Forall₂ (Occurrence.Moved n) os os') :
    firstFault? r os' = (firstFault? r os).map (SelectorError.moved n) := by
  induction h with
  | nil => rfl
  | @cons o o' os os' hFirst _ ih =>
      rw [firstFault?, firstFault?] at ih ⊢
      rw [List.findSome?_cons, List.findSome?_cons, ih, hFirst.fault?]
      cases o.fault? r <;> rfl

/-- The type of a compound does not depend on where the compound stands. -/
theorem type?_of_parallel {R : Nat → Nat → Prop} {offset offset' : Nat}
    {parts parts' : List Simple} (h : PartsParallel R parts parts') :
    (Surroundings.of ⟨offset', parts'⟩).type? = (Surroundings.of ⟨offset, parts⟩).type? := by
  rw [← type?_unplaced, partsUnplaced_of_parallel h, type?_unplaced]

mutual

/-- Parallel selectors are made of the same simple selectors, moved. -/
theorem simpleOccurrences_moved {around around' : Surroundings}
    (hType : around'.type? = around.type?) (hOffset : around'.offset = around.offset + n) :
    ∀ {simple simple' : Simple}, simple.Parallel (IsMoved n) simple' →
      List.Forall₂ (Occurrence.Moved n) (simpleOccurrences around simple)
        (simpleOccurrences around' simple')
  | .not list, simple', h => by
      cases simple' with
      | not list' => exact listOccurrences_moved (by rwa [Simple.Parallel] at h)
      | _ => simp [Simple.Parallel] at h
  | .has list, simple', h => by
      cases simple' with
      | has list' => exact listOccurrences_moved (by rwa [Simple.Parallel] at h)
      | _ => simp [Simple.Parallel] at h
  | .type .., simple', h | .universal .., simple', h | .class .., simple', h | .id .., simple', h
  | .attribute .., simple', h | .pseudo .., simple', h | .nth .., simple', h
  | .contains .., simple', h => by
      simp only [Simple.Parallel] at h
      rw [h]
      exact .cons ⟨rfl, hType, hOffset⟩ .nil
  termination_by structural simple => simple

theorem partsOccurrences_moved {around around' : Surroundings}
    (hType : around'.type? = around.type?) (hOffset : around'.offset = around.offset + n) :
    ∀ {parts parts' : List Simple}, PartsParallel (IsMoved n) parts parts' →
      List.Forall₂ (Occurrence.Moved n) (partsOccurrences around parts)
        (partsOccurrences around' parts')
  | [], parts', h => by
      cases parts' with
      | nil => exact .nil
      | cons => simp [PartsParallel] at h
  | part :: parts, parts', h => by
      cases parts' with
      | nil => simp [PartsParallel] at h
      | cons part' parts' =>
          obtain ⟨hPart, hParts⟩ := by rwa [PartsParallel] at h
          exact List.rel_append (simpleOccurrences_moved hType hOffset hPart)
            (partsOccurrences_moved hType hOffset hParts)
  termination_by structural parts => parts

theorem compoundOccurrences_moved : ∀ {compound compound' : Compound},
    compound.Parallel (IsMoved n) compound' →
      List.Forall₂ (Occurrence.Moved n) (compoundOccurrences compound)
        (compoundOccurrences compound')
  | ⟨offset, parts⟩, ⟨offset', parts'⟩, h => by
      obtain ⟨hOffset, hParts⟩ := by rwa [Compound.Parallel] at h
      exact partsOccurrences_moved (type?_of_parallel hParts) hOffset hParts
  termination_by structural compound => compound

theorem complexOccurrences_moved : ∀ {selector selector' : Complex},
    selector.Parallel (IsMoved n) selector' →
      List.Forall₂ (Occurrence.Moved n) (complexOccurrences selector)
        (complexOccurrences selector')
  | .single compound, selector', h => by
      cases selector' with
      | single compound' => exact compoundOccurrences_moved (by rwa [Complex.Parallel] at h)
      | joined => simp [Complex.Parallel] at h
  | .joined left combinator right, selector', h => by
      cases selector' with
      | single => simp [Complex.Parallel] at h
      | joined left' combinator' right' =>
          obtain ⟨hLeft, -, hRight⟩ := by rwa [Complex.Parallel] at h
          exact List.rel_append (complexOccurrences_moved hLeft) (compoundOccurrences_moved hRight)
  termination_by structural selector => selector

/-- Parallel lists are made of the same simple selectors, moved, by induction over the tree. -/
theorem listOccurrences_moved : ∀ {list list' : List Complex},
    ListParallel (IsMoved n) list list' →
      List.Forall₂ (Occurrence.Moved n) (listOccurrences list) (listOccurrences list')
  | [], list', h => by
      cases list' with
      | nil => exact .nil
      | cons => simp [ListParallel] at h
  | selector :: list, list', h => by
      cases list' with
      | nil => simp [ListParallel] at h
      | cons selector' list' =>
          obtain ⟨hSelector, hList⟩ := by rwa [ListParallel] at h
          exact List.rel_append (complexOccurrences_moved hSelector) (listOccurrences_moved hList)
  termination_by structural list => list

end

/-- Lists that differ in offsets only have the same translation. -/
theorem listText_of_unplaced {list list' : List Complex}
    (h : listUnplaced list' = listUnplaced list)
    {scope : Scope} {text : Text} :
    listText r scope list' = .ok text ↔ listText r scope list = .ok text := by
  have hPaths (paths : List LocationPath) :
      listPaths r scope.axis list' = .ok paths ↔ listPaths r scope.axis list = .ok paths := by
    rw [← listPaths_unplaced list', h, listPaths_unplaced]
  simp only [listText_eq_ok_iff, listExpr_eq_ok_iff, hPaths]

/-- A list further to the right has the same translation, or the same fault further to the right. -/
theorem listText_moved {list list' : List Complex} (h : ListParallel (IsMoved n) list list')
    (scope : Scope) :
    listText r scope list' = (listText r scope list).mapError (SelectorError.moved n) := by
  have hFault := firstFault?_moved (r := r) (listOccurrences_moved h)
  rw [← error?_listText r scope, ← error?_listText r scope] at hFault
  cases hText : listText r scope list with
  | ok text =>
      exact (listText_of_unplaced (listUnplaced_of_parallel h)).mpr hText
  | error e =>
      rw [hText] at hFault
      cases hText' : listText r scope list' with
      | ok text =>
          rw [hText'] at hFault
          cases hFault
      | error e' =>
          rw [hText'] at hFault
          exact congrArg Except.error (Option.some.inj hFault)

end SelectorXPath.Translate
