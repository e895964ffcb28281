import SelectorXPath.Proofs.Selector.WellFormed
import SelectorXPath.Proofs.Translate.Attributes
import SelectorXPath.Proofs.Translate.Faults

/-! Classes. A class selector looks for a word of the `class` attribute, and so does the attribute
test that asks for one. The two hold of the same elements unless there is white space in the name,
which only an escape can bring there. Then the test holds of no element, while a class is still
found wherever the parts between its spaces are neighbours. -/

namespace SelectorXPath

open SelectorXPath.Text SelectorXPath.XPath

/-- The words of the `class` attribute of an element. The attribute is one without namespace. -/
def Document.classes (d : Document) (p : Address) : List Text :=
  words (((d.attributesNamed (fun a => a.localPart = "class".toList && a.uri = []) p).head?.map
    Attribute.value).getD [])

namespace Translate

mutual

/-- What a selector is made of is well formed if the selector is. -/
theorem isWellFormed_of_simpleOccurrences {o : Occurrence} : ∀ (simple : Simple)
    (around : Surroundings), simple.isWellFormed = true → o ∈ simpleOccurrences around simple →
    o.simple.isWellFormed = true
  | .not list, around, hWellFormed, h | .has list, around, hWellFormed, h => by
      rw [Simple.isWellFormed, Bool.and_eq_true] at hWellFormed
      exact isWellFormed_of_listOccurrences list hWellFormed.2 h
  | .type .., around, hWellFormed, h | .universal _, around, hWellFormed, h
  | .class _, around, hWellFormed, h | .id _, around, hWellFormed, h
  | .attribute _, around, hWellFormed, h | .pseudo _, around, hWellFormed, h
  | .nth .., around, hWellFormed, h | .contains _, around, hWellFormed, h => by
      rwa [List.mem_singleton.mp h]

theorem isWellFormed_of_partsOccurrences {o : Occurrence} : ∀ (parts : List Simple)
    (around : Surroundings), partsWellFormed parts = true → o ∈ partsOccurrences around parts →
    o.simple.isWellFormed = true
  | [], around, hWellFormed, h => by cases h
  | part :: parts, around, hWellFormed, h => by
      rw [partsWellFormed, Bool.and_eq_true] at hWellFormed
      rcases List.mem_append.mp h with h | h
      · exact isWellFormed_of_simpleOccurrences part around hWellFormed.1 h
      · exact isWellFormed_of_partsOccurrences parts around hWellFormed.2 h

/-- What a compound is made of is well formed if the compound is. -/
theorem isWellFormed_of_compoundOccurrences {o : Occurrence} : ∀ compound : Compound,
    compound.isWellFormed = true → o ∈ compoundOccurrences compound →
    o.simple.isWellFormed = true
  | ⟨offset, parts⟩, hWellFormed, h => by
      rw [Compound.isWellFormed, Bool.and_eq_true] at hWellFormed
      exact isWellFormed_of_partsOccurrences parts _ hWellFormed.2 h

theorem isWellFormed_of_complexOccurrences {o : Occurrence} : ∀ selector : Complex,
    selector.isWellFormed = true → o ∈ complexOccurrences selector →
    o.simple.isWellFormed = true
  | .single compound, hWellFormed, h => isWellFormed_of_compoundOccurrences compound hWellFormed h
  | .joined left _ right, hWellFormed, h => by
      rw [Complex.isWellFormed, Bool.and_eq_true] at hWellFormed
      rcases List.mem_append.mp h with h | h
      · exact isWellFormed_of_complexOccurrences left hWellFormed.1 h
      · exact isWellFormed_of_compoundOccurrences right hWellFormed.2 h

/-- The simple selectors of a well-formed list are well formed, however deep they stand. -/
theorem isWellFormed_of_listOccurrences {o : Occurrence} : ∀ list : List Complex,
    allWellFormed list = true → o ∈ listOccurrences list → o.simple.isWellFormed = true
  | [], hWellFormed, h => by cases h
  | selector :: list, hWellFormed, h => by
      rw [allWellFormed, Bool.and_eq_true] at hWellFormed
      rcases List.mem_append.mp h with h | h
      · exact isWellFormed_of_complexOccurrences selector hWellFormed.1 h
      · exact isWellFormed_of_listOccurrences list hWellFormed.2 h

end

variable {d : Document} {p : Address}

/-- The words of the first `class` attribute are the classes of the element. Of an element without
the attribute there are none. -/
theorem words_class (h : d.HasElement p) :
    words (((Expr.path (.attributeNamed "class".toList)).value d (.tree p)).toText d) =
      d.classes p := by
  have hValue : (Expr.path (.attributeNamed "class".toList)).value d (.tree p) =
      .nodes ((LocationPath.attributeNamed "class".toList).nodes d (.tree p)) := rfl
  rw [hValue, nodes_attributeNamed, Document.toText_attributeNodes h, Document.classes]

/-- For a class that was parsed, the condition of the class selector and that of the test for a word
of the `class` attribute hold of those elements that have the class, if there is no white space in
its name. Otherwise the test fails everywhere, and the class selector takes the parts between the
spaces of the name for classes that have to stand side by side. -/
theorem holds_class {source : Text} {limit : Nat} {list : SelectorList} {o : Occurrence}
    {name : Text} (h : Selector.parse source limit = .ok list) (hMem : o ∈ listOccurrences list)
    (hClass : o.simple = .class name) (r : Resolver) :
    ∃ own included, simpleConditions r o.around o.simple = .ok [own] ∧
      simpleConditions r o.around
        (.attribute ⟨"class".toList, .absent, some ⟨.includes, name⟩⟩) = .ok [included] ∧
      own.IsReadingOf own.text ∧ included.IsReadingOf included.text ∧
      ∀ d p, d.HasElement p →
        (name.any isSpace = false →
          (own.holds d (.tree p) = true ↔ name ∈ d.classes p) ∧
          (included.holds d (.tree p) = true ↔ name ∈ d.classes p)) ∧
        (name.any isSpace = true → included.holds d (.tree p) = false) ∧
        (own.holds d (.tree p) = true ↔ name.splitOn ' ' <:+: d.classes p) ∧
        (' ' ∉ name → (own.holds d (.tree p) = true ↔ name ∈ d.classes p)) := by
  have hNe : name ≠ [] := by
    have hWellFormed := Selector.listWellFormed_of_parse h
    rw [listWellFormed, Bool.and_eq_true] at hWellFormed
    have hSimple := isWellFormed_of_listOccurrences list hWellFormed.2 hMem
    rw [hClass] at hSimple
    exact of_decide_eq_true hSimple
  have hPath : attributePath r "class".toList .absent = .ok (.attributeNamed "class".toList) := rfl
  have hOwn : simpleConditions r o.around o.simple =
      .ok [.hasWord (.path (.attributeNamed "class".toList)) name] := by
    rw [hClass]
    rfl
  have hShaped : (LocationPath.attributeNamed "class".toList).isShaped = true := rfl
  obtain ⟨type, -, hFits⟩ := isCondition_hasWord (t := name) hShaped
  obtain ⟨hIncluded, hReading⟩ :=
    simpleConditions_attribute o.around hPath (some ⟨.includes, name⟩)
  refine ⟨_, _, hOwn, hIncluded, isReadingOf_text hFits, hReading, fun d p hElement => ?_⟩
  have hHolds (hSpace : ' ' ∉ name) :
      (Expr.hasWord (.path (.attributeNamed "class".toList)) name).holds d (.tree p) = true ↔
        name ∈ d.classes p := by
    rw [holds_hasWord_iff_mem hNe hSpace, words_class hElement]
  refine ⟨fun hFree => ⟨hHolds ?_, ?_⟩, fun hSpace => ?_, ?_, hHolds⟩
  · intro hSpace
    exact List.any_eq_false.mp hFree ' ' hSpace rfl
  · rw [Option.elim_some, holds_comparisonCondition, Comparison.Finds, words_class hElement]
    simp [AttributeOperator.allowsEqual, hNe, hFree]
  · rw [Option.elim_some, comparisonCondition, if_pos (.inr hSpace)]
    rfl
  · rw [holds_hasWord hNe, words_class hElement]

/-- Elements with one class, and with two in both orders. -/
def classed : Document :=
  let named (classes : String) : Tree :=
    .element ⟨['e'], ['e'], []⟩ [⟨⟨"class".toList, "class".toList, []⟩, classes.toList⟩] []
  ⟨[named "a", named "a  b", named "b\ta"]⟩

/-- A name that is written as an escape. -/
theorem holds_class_of_escape :
    ∃ list own included, Selector.parse ".\\62".toList 0 = .ok list ∧
      (⟨⟨0, none⟩, .class ['b']⟩ : Occurrence) ∈ listOccurrences list ∧
      simpleConditions Registry.empty.toResolver ⟨0, none⟩ (.class ['b']) = .ok [own] ∧
      simpleConditions Registry.empty.toResolver ⟨0, none⟩
        (.attribute ⟨"class".toList, .absent, some ⟨.includes, ['b']⟩⟩) = .ok [included] ∧
      own.holds classed (.tree [2]) = true ∧ included.holds classed (.tree [2]) = true ∧
      ¬ own.holds classed (.tree [0]) = true := by
  have hParse : Selector.parse ".\\62".toList 0 = .ok [.single ⟨0, [.class ['b']]⟩] := by
    with_unfolding_all rfl
  have hMem : (⟨⟨0, none⟩, .class ['b']⟩ : Occurrence) ∈
      listOccurrences [.single ⟨0, [.class ['b']]⟩] := List.mem_cons_self
  obtain ⟨own, included, hOwn, hIncluded, -, -, hHolds⟩ :=
    holds_class hParse hMem rfl Registry.empty.toResolver
  have hFree : List.any ['b'] isSpace = false := by decide
  obtain ⟨hFirst, -⟩ := (hHolds classed [0] (by decide)).1 hFree
  obtain ⟨hThird, hTest⟩ := (hHolds classed [2] (by decide)).1 hFree
  exact ⟨_, own, included, hParse, hMem, hOwn, hIncluded, hThird.mpr (by decide),
    hTest.mpr (by decide), fun hOne => absurd (hFirst.mp hOne) (by decide)⟩

/-- A space in the name lets two classes that stand side by side pass for one. -/
theorem not_holds_class_of_space :
    ∃ list own included, Selector.parse ".a\\ b".toList 0 = .ok list ∧
      (⟨⟨0, none⟩, .class "a b".toList⟩ : Occurrence) ∈ listOccurrences list ∧
      simpleConditions Registry.empty.toResolver ⟨0, none⟩ (.class "a b".toList) = .ok [own] ∧
      simpleConditions Registry.empty.toResolver ⟨0, none⟩
        (.attribute ⟨"class".toList, .absent, some ⟨.includes, "a b".toList⟩⟩) = .ok [included] ∧
      ¬ (own.holds classed (.tree [1]) = true ↔ included.holds classed (.tree [1]) = true) ∧
      ¬ (own.holds classed (.tree [1]) = true ↔ "a b".toList ∈ classed.classes [1]) := by
  have hParse : Selector.parse ".a\\ b".toList 0 =
      .ok [.single ⟨0, [.class "a b".toList]⟩] := by
    with_unfolding_all rfl
  exact ⟨_, _, _, hParse, List.mem_cons_self, rfl, rfl, by decide, by decide⟩

end Translate

end SelectorXPath
