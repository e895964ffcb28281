import SelectorXPath.Translate.Selector

/-! Why a list has no translation. Only two things can be wrong with a simple selector: a prefix
that is bound to nothing, and a question for the type of a compound that names none. Translation
visits the simple selectors in the order of the source, those inside of `:not()` and `:has()` where
their pseudo-class stands, and fails with the first fault on the way. -/

namespace SelectorXPath.Translate

open SelectorXPath.XPath

def error? {ε α : Type} : Except ε α → Option ε
  | .ok _ => none
  | .error e => some e

section

variable {ε α β : Type}

/-- A computation that has no error has a value. -/
theorem error?_eq_none_iff {x : Except ε α} : error? x = none ↔ ∃ a, x = .ok a := by
  cases x <;> simp [error?]

@[simp] theorem error?_ok (a : α) : error? (.ok a : Except ε α) = none := rfl

@[simp] theorem error?_pure (a : α) : error? (pure a : Except ε α) = none := rfl

/-- The error of two computations in sequence is that of the first of them that fails. -/
theorem error?_bind {x : Except ε α} {f : α → Except ε β} {next : Option ε}
    (h : ∀ a, x = .ok a → error? (f a) = next) : error? (x >>= f) = (error? x).or next := by
  cases x with
  | error e => rfl
  | ok a => exact h a rfl

/-- What is done with a value adds no error. -/
theorem error?_bind_pure {x : Except ε α} {f : α → β} :
    error? (x >>= fun a => pure (f a)) = error? x := by
  rw [error?_bind fun _ _ => error?_pure _, Option.or_none]

theorem error?_map {x : Except ε α} {f : α → β} : error? (x.map f) = error? x := by
  cases x <;> rfl

end

/-- A simple selector, and what the compound around it knows. -/
structure Occurrence where
  around : Surroundings
  simple : Simple

mutual

def simpleOccurrences (around : Surroundings) : Simple → List Occurrence
  | .not list => listOccurrences list
  | .has list => listOccurrences list
  | simple => [⟨around, simple⟩]

def partsOccurrences (around : Surroundings) : List Simple → List Occurrence
  | [] => []
  | part :: parts => simpleOccurrences around part ++ partsOccurrences around parts

def compoundOccurrences : Compound → List Occurrence
  | ⟨offset, parts⟩ => partsOccurrences (.of ⟨offset, parts⟩) parts

def complexOccurrences : Complex → List Occurrence
  | .single compound => compoundOccurrences compound
  | .joined left _ right => complexOccurrences left ++ compoundOccurrences right

/-- All simple selectors of a list. -/
def listOccurrences : List Complex → List Occurrence
  | [] => []
  | selector :: list => complexOccurrences selector ++ listOccurrences list

end

/-- The pseudo-class that asks for the type of its compound, as it is called in messages. -/
def asking? : Simple → Option Text
  | .pseudo .firstOfType => some (':' :: PseudoClass.firstOfType.name)
  | .pseudo .lastOfType => some (':' :: PseudoClass.lastOfType.name)
  | .pseudo .onlyOfType => some (':' :: PseudoClass.onlyOfType.name)
  | .nth .ofType _ => some (':' :: (FunctionalClass.nth .ofType).name ++ ['(', ')'])
  | .nth .lastOfType _ => some (':' :: (FunctionalClass.nth .lastOfType).name ++ ['(', ')'])
  | _ => none

namespace Occurrence

/-- The fault of a selector that asks for a type where none is named. -/
def lack? (o : Occurrence) : Option SelectorError :=
  match asking? o.simple, o.around.type? with
  | some asking, none => some (.grammatical
      ⟨o.around.offset, .supported (asking ++ " without a type selector".toList)⟩)
  | _, _ => none

/-- The qualifier of the name that a selector compares: its own, or that of the type it asks for. -/
def qualifier (o : Occurrence) : Qualifier :=
  match o.simple with
  | .type _ qualifier => qualifier
  | .universal qualifier => qualifier
  | .attribute test => test.qualifier
  | simple => if (asking? simple).isSome then (o.around.type?.map Prod.snd).getD .absent else .absent

end Occurrence

/-- The fault of a qualifier: its prefix is bound to nothing. -/
def qualifierFault? (r : Resolver) : Qualifier → Option SelectorError
  | .named key => error? (r.namespaceOf key)
  | _ => none

/-- What is wrong with a simple selector. -/
def Occurrence.fault? (r : Resolver) (o : Occurrence) : Option SelectorError :=
  o.lack?.or (qualifierFault? r o.qualifier)

section

variable (r : Resolver)

/-- A type is at fault if its prefix is bound to nothing. -/
theorem error?_typeConditions (name : Text) (qualifier : Qualifier) :
    error? (typeConditions r name qualifier) = qualifierFault? r qualifier := by
  cases qualifier with
  | absent =>
      rw [typeConditions]
      split
      · split <;> rfl
      · rfl
  | any | noNamespace => rfl
  | named key =>
      rw [typeConditions, qualifierFault?]
      cases r.namespaceOf key <;> rfl

theorem error?_universalConditions (qualifier : Qualifier) :
    error? (universalConditions r qualifier) = qualifierFault? r qualifier := by
  cases qualifier with
  | named key =>
      rw [universalConditions, qualifierFault?]
      cases r.namespaceOf key <;> rfl
  | _ => rfl

/-- Of an attribute test only the prefix can be at fault. -/
theorem error?_attributeCondition (test : AttributeTest) :
    error? (attributeCondition r test) = qualifierFault? r test.qualifier := by
  have hPath : error? (attributePath r test.name test.qualifier) =
      qualifierFault? r test.qualifier := by
    cases test.qualifier with
    | named key =>
        rw [attributePath, qualifierFault?]
        cases r.namespaceOf key <;> rfl
    | _ => rfl
  rw [← hPath, attributeCondition]
  cases attributePath r test.name test.qualifier with
  | error e => rfl
  | ok path => cases test.comparison <;> rfl

/-- The siblings of a type are known if a type is named and its prefix is bound. -/
theorem error?_siblingsOfType {around : Surroundings} {simple : Simple} {asking : Text}
    (axis : Axis) (hAsking : asking? simple = some asking)
    (hQualifier : (⟨around, simple⟩ : Occurrence).qualifier =
      (around.type?.map Prod.snd).getD .absent) :
    error? (siblingsOfType r around asking axis) = (⟨around, simple⟩ : Occurrence).fault? r := by
  rw [siblingsOfType, error?_bind_pure, siblingConditions, Occurrence.fault?, hQualifier,
    Occurrence.lack?, hAsking]
  cases around.type? with
  | none => rfl
  | some type => exact error?_typeConditions r type.1 type.2

/-- Pseudo-classes without argument are at fault where they need a type, and where that type is at
fault. -/
theorem error?_pseudoConditions (around : Surroundings) (pseudoClass : PseudoClass) :
    error? (pseudoConditions r around pseudoClass) =
      (⟨around, .pseudo pseudoClass⟩ : Occurrence).fault? r := by
  cases pseudoClass with
  | firstOfType | lastOfType =>
      simp only [pseudoConditions, error?_bind_pure]
      exact error?_siblingsOfType r _ rfl rfl
  | onlyOfType =>
      have hSiblings (axis : Axis) :
          error? (siblingsOfType r around (':' :: PseudoClass.onlyOfType.name) axis) =
            (⟨around, .pseudo .onlyOfType⟩ : Occurrence).fault? r :=
        error?_siblingsOfType r axis rfl rfl
      simp only [pseudoConditions]
      rw [error?_bind fun _ _ => error?_bind_pure, hSiblings, hSiblings, Option.or_self]
  | _ => rfl

/-- Positions have faults of the same two kinds. -/
theorem error?_countedSiblings (around : Surroundings) (counting : Counting)
    (positions : AnPlusB) :
    error? (countedSiblings r around counting) =
      (⟨around, .nth counting positions⟩ : Occurrence).fault? r := by
  cases counting with
  | child | lastChild => rfl
  | ofType | lastOfType => exact error?_siblingsOfType r _ rfl rfl

def firstFault? (occurrences : List Occurrence) : Option SelectorError :=
  occurrences.findSome? (Occurrence.fault? r)

/-- The first fault is looked for from the left to the right. -/
theorem firstFault?_append (before after : List Occurrence) :
    firstFault? r (before ++ after) = (firstFault? r before).or (firstFault? r after) :=
  List.findSome?_append

theorem firstFault?_singleton (o : Occurrence) : firstFault? r [o] = o.fault? r := by
  rw [firstFault?, List.findSome?_singleton]

mutual

/-- The translation of a simple selector stops at the first fault of what it is made of. -/
theorem error?_simpleConditions : ∀ (simple : Simple) (around : Surroundings),
    error? (simpleConditions r around simple) = firstFault? r (simpleOccurrences around simple)
  | .type name qualifier, around => by
      rw [simpleConditions, simpleOccurrences, firstFault?_singleton]
      · exact error?_typeConditions r name qualifier
      all_goals nofun
  | .universal qualifier, around => by
      rw [simpleConditions, simpleOccurrences, firstFault?_singleton]
      · exact error?_universalConditions r qualifier
      all_goals nofun
  | .class name, around => rfl
  | .id name, around => rfl
  | .attribute test, around => by
      rw [simpleConditions, simpleOccurrences, firstFault?_singleton, error?_bind_pure]
      · exact error?_attributeCondition r test
      all_goals nofun
  | .pseudo pseudoClass, around => by
      rw [simpleConditions, simpleOccurrences, firstFault?_singleton]
      · exact error?_pseudoConditions r around pseudoClass
      all_goals nofun
  | .nth counting positions, around => by
      rw [simpleConditions, simpleOccurrences, firstFault?_singleton, error?_bind_pure]
      · exact error?_countedSiblings r around counting positions
      all_goals nofun
  | .not list, around => by
      rw [simpleConditions, simpleOccurrences, error?_bind_pure]
      exact error?_listConditions list
  | .has list, around => by
      rw [simpleConditions, simpleOccurrences, error?_bind_pure]
      exact error?_listPaths list .descendant
  | .contains text, around => rfl

theorem error?_partsConditions : ∀ (parts : List Simple) (around : Surroundings),
    error? (partsConditions r around parts) = firstFault? r (partsOccurrences around parts)
  | [], around => rfl
  | part :: parts, around => by
      rw [partsConditions, partsOccurrences, firstFault?_append,
        error?_bind fun _ _ => error?_bind_pure]
      rw [error?_simpleConditions part around, error?_partsConditions parts around]

/-- A compound stops at the first fault of its parts, which are gone through in order. -/
theorem error?_compoundConditions : ∀ (compound : Compound),
    error? (compoundConditions r compound) = firstFault? r (compoundOccurrences compound)
  | ⟨offset, parts⟩ => by
      rw [compoundConditions, compoundOccurrences]
      exact error?_partsConditions parts _

/-- As a path a chain is gone through from the left to the right. -/
theorem error?_complexPath : ∀ (selector : Complex) (axis : Axis),
    error? (complexPath r axis selector) = firstFault? r (complexOccurrences selector)
  | .single compound, axis => by
      rw [complexPath, complexOccurrences, error?_bind_pure]
      exact error?_compoundConditions compound
  | .joined left combinator right, axis => by
      rw [complexPath, complexOccurrences, firstFault?_append,
        error?_bind fun _ _ => error?_bind_pure]
      rw [error?_complexPath left axis, error?_compoundConditions right]

/-- As conditions it is gone through in the same direction, although they lead to the left. -/
theorem error?_complexConditions : ∀ (selector : Complex),
    error? (complexConditions r selector) = firstFault? r (complexOccurrences selector)
  | .single compound => by
      rw [complexConditions, complexOccurrences, error?_bind_pure]
      exact error?_compoundConditions compound
  | .joined left combinator right => by
      rw [complexConditions, complexOccurrences, firstFault?_append,
        error?_bind fun _ _ => error?_bind_pure]
      rw [error?_complexConditions left, error?_compoundConditions right]

/-- The paths of a list fail with the first fault in the order of the source. -/
theorem error?_listPaths : ∀ (list : List Complex) (axis : Axis),
    error? (listPaths r axis list) = firstFault? r (listOccurrences list)
  | [], axis => rfl
  | selector :: list, axis => by
      rw [listPaths, listOccurrences, firstFault?_append, error?_bind fun _ _ => error?_bind_pure]
      rw [error?_complexPath selector axis, error?_listPaths list axis]

theorem error?_listConditions : ∀ (list : List Complex),
    error? (listConditions r list) = firstFault? r (listOccurrences list)
  | [] => rfl
  | selector :: list => by
      rw [listConditions, listOccurrences, firstFault?_append,
        error?_bind fun _ _ => error?_bind_pure]
      rw [error?_complexConditions selector, error?_listConditions list]

end

/-- Translation fails with the first fault in the order of the source, whatever the scope. -/
theorem error?_listText (scope : Scope) (list : SelectorList) :
    error? (listText r scope list) = firstFault? r (listOccurrences list) := by
  rw [listText, error?_map, listExpr, error?_bind_pure]
  exact error?_listPaths r list scope.axis

end

end SelectorXPath.Translate
