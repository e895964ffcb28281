import SelectorXPath.Compile
import SelectorXPath.Proofs.Translate.Faults

/-! What a translation asks of a resolver: the namespaces of the prefixes that are written in the
list, the protected one apart, and the default namespace, which may as well be empty as absent.
Resolvers that give the same answers to these questions give the same translation, or the same
fault. -/

namespace SelectorXPath

/-- The qualifier of the name that is written in a simple selector. -/
def Simple.qualifier? : Simple → Option Qualifier
  | .type _ qualifier => some qualifier
  | .universal qualifier => some qualifier
  | .attribute test => some test.qualifier
  | _ => none

/-- The resolvers give the same namespace to each of the keys and to names without qualifier. Of the
protected prefix they may say what they like. -/
structure Resolver.Agree (keys : List Text) (r r' : Resolver) : Prop where
  bound : ∀ key ∈ keys, key ≠ xmlPrefix → r'.bound? key = r.bound? key
  default : r'.default?.getD [] = r.default?.getD []

namespace Translate

open SelectorXPath.XPath

/-- The prefixes that are written in a list, inside of `:not()` and `:has()` too. -/
def writtenPrefixes (list : SelectorList) : List Text :=
  (listOccurrences list).filterMap fun o =>
    match o.simple.qualifier? with
    | some (.named key) => some key
    | _ => none

variable {r r' : Resolver}

/-- The resolvers cannot be told apart by names without qualifier. An empty default namespace counts
as none. -/
def SameDefault (r r' : Resolver) : Prop :=
  r'.default?.getD [] = r.default?.getD []

/-- The resolvers cannot be told apart by the qualifier. -/
def SameNamespace (r r' : Resolver) (qualifier : Qualifier) : Prop :=
  ∀ key, qualifier = .named key → r'.namespaceOf key = r.namespaceOf key

/-- The resolvers cannot be told apart by the names that are written in the simple selectors. -/
def SameNamespaces (r r' : Resolver) (occurrences : List Occurrence) : Prop :=
  ∀ o ∈ occurrences, ∀ qualifier, o.simple.qualifier? = some qualifier →
    SameNamespace r r' qualifier

/-- The type that a compound names has a qualifier that does not tell the resolvers apart. -/
def SameTypes (r r' : Resolver) (around : Surroundings) : Prop :=
  ∀ type, around.type? = some type → SameNamespace r r' type.2

/-- Resolvers that cannot be told apart by a list cannot be told apart by its halves. -/
theorem sameNamespaces_append {before after : List Occurrence} :
    SameNamespaces r r' (before ++ after) ↔
      SameNamespaces r r' before ∧ SameNamespaces r r' after :=
  List.forall_mem_append

theorem sameNamespaces_singleton {around : Surroundings} {simple : Simple} {qualifier : Qualifier}
    (h : SameNamespaces r r' [⟨around, simple⟩]) (hQualifier : simple.qualifier? = some qualifier) :
    SameNamespace r r' qualifier :=
  h _ List.mem_cons_self _ hQualifier

/-- Agreement on what is written in a list is enough for all names in it. -/
theorem sameNamespaces_of_agree {list : SelectorList} (h : r.Agree (writtenPrefixes list) r') :
    SameNamespaces r r' (listOccurrences list) := by
  rintro o hMem _ hQualifier key rfl
  rw [Resolver.namespaceOf, Resolver.namespaceOf]
  split
  · rfl
  · rename_i hOther
    have hWritten : key ∈ writtenPrefixes list :=
      List.mem_filterMap.mpr ⟨o, hMem, by rw [hQualifier]⟩
    rw [h.bound key hWritten hOther]

/-- The type that a compound names is written in the compound. -/
theorem sameTypes_of_parts {offset : Nat} {parts : List Simple}
    (h : SameNamespaces r r' (compoundOccurrences ⟨offset, parts⟩)) :
    SameTypes r r' (.of ⟨offset, parts⟩) := by
  intro type hType
  cases parts with
  | nil => cases hType
  | cons part parts =>
      cases part with
      | type name qualifier =>
          cases hType
          rw [compoundOccurrences, partsOccurrences, sameNamespaces_append] at h
          exact sameNamespaces_singleton h.1 rfl
      | _ => cases hType

theorem universalConditions_congr {qualifier : Qualifier} (h : SameNamespace r r' qualifier) :
    universalConditions r' qualifier = universalConditions r qualifier := by
  cases qualifier with
  | named key => rw [universalConditions, universalConditions, h key rfl]
  | _ => rfl

/-- A test of attributes asks for its own prefix only. The default namespace is not for
attributes. -/
theorem attributeCondition_congr {test : AttributeTest} (h : SameNamespace r r' test.qualifier) :
    attributeCondition r' test = attributeCondition r test := by
  have hPath : attributePath r' test.name test.qualifier =
      attributePath r test.name test.qualifier := by
    cases hQualifier : test.qualifier with
    | named key => rw [attributePath, attributePath, h key hQualifier]
    | _ => rfl
  rw [attributeCondition, attributeCondition, hPath]

/-- A name without qualifier asks for the default namespace. -/
theorem typeConditions_congr (hDefault : SameDefault r r') (name : Text) {qualifier : Qualifier}
    (h : SameNamespace r r' qualifier) :
    typeConditions r' name qualifier = typeConditions r name qualifier := by
  cases qualifier with
  | absent =>
      -- an empty default namespace is looked at like none
      have hText (r : Resolver) : typeConditions r name .absent =
          if r.default?.getD [] = [] then .ok [.nameIs name]
          else .ok [.localNameIs name, .namespaceIs (r.default?.getD [])] := by
        rw [typeConditions]
        cases r.default? <;> rfl
      rw [hText, hText, hDefault]
  | any | noNamespace => rfl
  | named key => rw [typeConditions, typeConditions, h key rfl]

/-- What asks for the type of its compound asks no more than the type does. -/
theorem siblingsOfType_congr (hDefault : SameDefault r r') {around : Surroundings} (asking : Text)
    (axis : Axis) (h : SameTypes r r' around) :
    siblingsOfType r' around asking axis = siblingsOfType r around asking axis := by
  have hSiblings : siblingConditions r' around asking = siblingConditions r around asking := by
    rw [siblingConditions, siblingConditions]
    split
    · rename_i name qualifier hType
      exact typeConditions_congr hDefault name (h _ hType)
    · rfl
  rw [siblingsOfType, siblingsOfType, hSiblings]

theorem pseudoConditions_congr (hDefault : SameDefault r r') {around : Surroundings}
    (pseudoClass : PseudoClass) (h : SameTypes r r' around) :
    pseudoConditions r' around pseudoClass = pseudoConditions r around pseudoClass := by
  cases pseudoClass with
  | firstOfType | lastOfType | onlyOfType =>
      simp only [pseudoConditions, siblingsOfType_congr hDefault _ _ h]
  | _ => rfl

theorem countedSiblings_congr (hDefault : SameDefault r r') {around : Surroundings}
    (counting : Counting) (h : SameTypes r r' around) :
    countedSiblings r' around counting = countedSiblings r around counting := by
  cases counting with
  | child | lastChild => rfl
  | ofType | lastOfType => exact siblingsOfType_congr hDefault _ _ h

mutual

/-- The conditions are the same, by induction over the tree. -/
theorem simpleConditions_congr (hDefault : SameDefault r r') :
    ∀ (simple : Simple) {around : Surroundings}, SameTypes r r' around →
      SameNamespaces r r' (simpleOccurrences around simple) →
      simpleConditions r' around simple = simpleConditions r around simple
  | .type name qualifier, around, _, h =>
      typeConditions_congr hDefault name (sameNamespaces_singleton h rfl)
  | .universal qualifier, around, _, h =>
      universalConditions_congr (sameNamespaces_singleton h rfl)
  | .attribute test, around, _, h => by
      rw [simpleConditions, simpleConditions,
        attributeCondition_congr (sameNamespaces_singleton h rfl)]
  | .class .., _, _, _ | .id .., _, _, _ | .contains .., _, _, _ => rfl
  | .pseudo pseudoClass, around, hTypes, _ => pseudoConditions_congr hDefault pseudoClass hTypes
  | .nth counting positions, around, hTypes, _ => by
      rw [simpleConditions, simpleConditions, countedSiblings_congr hDefault counting hTypes]
  | .not list, around, _, h => by
      rw [simpleConditions, simpleConditions, listConditions_congr hDefault list h]
  | .has list, around, _, h => by
      rw [simpleConditions, simpleConditions, listPaths_congr hDefault list .descendant h]

theorem partsConditions_congr (hDefault : SameDefault r r') :
    ∀ (parts : List Simple) {around : Surroundings}, SameTypes r r' around →
      SameNamespaces r r' (partsOccurrences around parts) →
      partsConditions r' around parts = partsConditions r around parts
  | [], _, _, _ => rfl
  | part :: parts, around, hTypes, h => by
      rw [partsOccurrences, sameNamespaces_append] at h
      rw [partsConditions, partsConditions, simpleConditions_congr hDefault part hTypes h.1,
        partsConditions_congr hDefault parts hTypes h.2]

theorem compoundConditions_congr (hDefault : SameDefault r r') : ∀ (compound : Compound),
    SameNamespaces r r' (compoundOccurrences compound) →
      compoundConditions r' compound = compoundConditions r compound
  | ⟨offset, parts⟩, h => by
      rw [compoundConditions, compoundConditions]
      exact partsConditions_congr hDefault parts (sameTypes_of_parts h) h

theorem complexPath_congr (hDefault : SameDefault r r') : ∀ (selector : Complex) (axis : Axis),
    SameNamespaces r r' (complexOccurrences selector) →
      complexPath r' axis selector = complexPath r axis selector
  | .single compound, axis, h => by
      rw [complexPath, complexPath, compoundConditions_congr hDefault compound h]
  | .joined left combinator right, axis, h => by
      rw [complexOccurrences, sameNamespaces_append] at h
      rw [complexPath, complexPath, complexPath_congr hDefault left axis h.1,
        compoundConditions_congr hDefault right h.2]

theorem complexConditions_congr (hDefault : SameDefault r r') : ∀ (selector : Complex),
    SameNamespaces r r' (complexOccurrences selector) →
      complexConditions r' selector = complexConditions r selector
  | .single compound, h => by
      rw [complexConditions, complexConditions, compoundConditions_congr hDefault compound h]
  | .joined left combinator right, h => by
      rw [complexOccurrences, sameNamespaces_append] at h
      rw [complexConditions, complexConditions, complexConditions_congr hDefault left h.1,
        compoundConditions_congr hDefault right h.2]

/-- Equal results also mean that both fail, and with the same error. -/
theorem listPaths_congr (hDefault : SameDefault r r') : ∀ (list : List Complex) (axis : Axis),
    SameNamespaces r r' (listOccurrences list) → listPaths r' axis list = listPaths r axis list
  | [], _, _ => rfl
  | selector :: list, axis, h => by
      rw [listOccurrences, sameNamespaces_append] at h
      rw [listPaths, listPaths, complexPath_congr hDefault selector axis h.1,
        listPaths_congr hDefault list axis h.2]

theorem listConditions_congr (hDefault : SameDefault r r') : ∀ (list : List Complex),
    SameNamespaces r r' (listOccurrences list) → listConditions r' list = listConditions r list
  | [], _ => rfl
  | selector :: list, h => by
      rw [listOccurrences, sameNamespaces_append] at h
      rw [listConditions, listConditions, complexConditions_congr hDefault selector h.1,
        listConditions_congr hDefault list h.2]

end

/-- A translation, or the fault that is reported in its place, depends on the resolver only through
the namespaces of the prefixes that are written in the list, and through the default namespace. -/
theorem listText_congr {list : SelectorList} (h : r.Agree (writtenPrefixes list) r')
    (scope : Scope) : listText r' scope list = listText r scope list := by
  rw [listText, listText, listExpr, listExpr,
    listPaths_congr h.default list scope.axis (sameNamespaces_of_agree h)]

/-- A resolver may bind the protected prefix, bind one that is not written, and call the default
namespace empty. -/
theorem listText_congr_of_rebound :
    ∃ list, Selector.parse "x>:not(xml|*[a|k])".toList 1 = .ok list ∧
      (Resolver.ofBindings [("a".toList, "u".toList)]).Agree (writtenPrefixes list)
        (.ofBindings [(defaultPrefix, []), ("a".toList, "u".toList), ("b".toList, "v".toList),
          (xmlPrefix, "v".toList)]) ∧
      listText (.ofBindings [(defaultPrefix, []), ("a".toList, "u".toList),
        ("b".toList, "v".toList), (xmlPrefix, "v".toList)]) .children list =
      listText (.ofBindings [("a".toList, "u".toList)]) .children list := by
  have hWritten : ((Selector.parse "x>:not(xml|*[a|k])".toList 1).map writtenPrefixes).toOption =
      some [xmlPrefix, "a".toList] := by
    decide +kernel
  cases hParse : Selector.parse "x>:not(xml|*[a|k])".toList 1 with
  | error e =>
      rw [hParse] at hWritten
      cases hWritten
  | ok list =>
      rw [hParse] at hWritten
      have hWritten : writtenPrefixes list = [xmlPrefix, "a".toList] := Option.some.inj hWritten
      have hAgree : (Resolver.ofBindings [("a".toList, "u".toList)]).Agree (writtenPrefixes list)
          (.ofBindings [(defaultPrefix, []), ("a".toList, "u".toList), ("b".toList, "v".toList),
            (xmlPrefix, "v".toList)]) := by
        refine ⟨fun key hKey hOther => ?_, by decide⟩
        rw [hWritten, List.mem_cons, List.mem_singleton] at hKey
        rcases hKey with rfl | rfl
        · exact absurd rfl hOther
        · decide
      exact ⟨list, rfl, hAgree, listText_congr hAgree .children⟩

end Translate

end SelectorXPath
