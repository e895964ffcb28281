import SelectorXPath.Proofs.Translate.Shape
import SelectorXPath.Proofs.XPath.Names
import SelectorXPath.Proofs.XPath.Siblings
import SelectorXPath.Proofs.XPath.Words

/-! What the condition of an attribute test asks of an element. Where the test speaks of one
attribute at most, it asks what the operator stands for. A name in any namespace may be that of
several attributes: then equality is asked of all of them, and everything else of the first one
only. -/

namespace SelectorXPath

open SelectorXPath.Text SelectorXPath.XPath

/-- The operator takes a value that equals the attribute's. -/
def AttributeOperator.allowsEqual : AttributeOperator → Bool
  | .equals | .dashMatch => true
  | _ => false

namespace Comparison

/-- What a comparison looks for inside of a text, equality apart. -/
def Finds (w : Text) : Comparison → Prop
  | ⟨.equals, _⟩ => False
  | ⟨.includes, v⟩ => v ≠ [] ∧ v.any isSpace = false ∧ v ∈ words w
  | ⟨.dashMatch, v⟩ => v ++ ['-'] <+: w
  | ⟨.beginning, v⟩ => v ≠ [] ∧ v <+: w
  | ⟨.ending, v⟩ => v ≠ [] ∧ v <:+ w
  | ⟨.inside, v⟩ => v ≠ [] ∧ v <:+: w

/-- The value of an attribute is like the comparison wants it to be: equal to the comparison's own,
where the operator allows that, or a text in which the comparison finds what it looks for. -/
def Accepts (w : Text) (c : Comparison) : Prop :=
  (c.operator.allowsEqual = true ∧ w = c.value) ∨ c.Finds w

variable {w : Text} {c : Comparison}

/-- Nothing is found in the empty text, so an attribute that is not there can be read as empty. -/
theorem not_finds_nil : ¬ c.Finds [] := by
  obtain ⟨operator, v⟩ := c
  cases operator <;> simp [Finds, words]

end Comparison

instance (w : Text) (c : Comparison) : Decidable (c.Finds w) :=
  match c with
  | ⟨.equals, _⟩ => inferInstanceAs (Decidable False)
  | ⟨.includes, _⟩ => inferInstanceAs (Decidable (_ ∧ _ ∧ _))
  | ⟨.dashMatch, _⟩ => inferInstanceAs (Decidable (_ <+: _))
  | ⟨.beginning, _⟩ => inferInstanceAs (Decidable (_ ∧ _ <+: _))
  | ⟨.ending, _⟩ => inferInstanceAs (Decidable (_ ∧ _ <:+ _))
  | ⟨.inside, _⟩ => inferInstanceAs (Decidable (_ ∧ _ <:+: _))

instance (w : Text) (c : Comparison) : Decidable (c.Accepts w) :=
  inferInstanceAs (Decidable (_ ∨ _))

/-- No two attributes of the element have the same name, as it is written or as it is meant. -/
def Document.HasDistinctAttributes (d : Document) (p : Address) : Prop :=
  (d.attributes p).Pairwise fun a b =>
    a.name.written ≠ b.name.written ∧
      ¬ (a.name.localPart = b.name.localPart ∧ a.name.uri = b.name.uri)

instance (d : Document) (p : Address) : Decidable (d.HasDistinctAttributes p) :=
  inferInstanceAs (Decidable (List.Pairwise _ _))

namespace Translate

/-- Whether an attribute test speaks of what has this name. A name without namespace that cannot be
written bare is meant as it is written. -/
def speaksOf (r : Resolver) (name : Text) : Qualifier → NodeName → Bool
  | .absent, a | .noNamespace, a =>
      if isBareName name then a.localPart = name && a.uri = [] else a.written = name
  | .any, a => a.localPart = name
  | .named key, a => a.localPart = name && r.namespaceOf key = .ok a.uri

section

variable {d : Document} {n : Node} {e : Expr} {v : Text}

/-- A function of a node's text and a constant holds as the relation that the function decides. -/
theorem holds_call_quote {function : CoreFunction} {R : Text → Text → Prop} [DecidableRel R]
    (hApply : ∀ w w' : Value, function.apply d n [w, w'] = .truth (R (w'.toText d) (w.toText d)))
    (v : Text) :
    (Expr.call function [e, quote v]).holds d n = true ↔ R v ((e.value d n).toText d) := by
  rw [Expr.holds, Expr.value, valuesOf, valuesOf, valuesOf, hApply, value_quote, Value.toTruth,
    decide_eq_true_iff, Value.toText]

theorem holds_startsWith (v : Text) :
    (Expr.call .startsWith [e, quote v]).holds d n = true ↔ v <+: (e.value d n).toText d :=
  holds_call_quote (fun _ _ => rfl) v

theorem holds_contains (v : Text) :
    (Expr.call .contains [e, quote v]).holds d n = true ↔ v <:+: (e.value d n).toText d :=
  holds_call_quote (fun _ _ => rfl) v

/-- Where the text is shorter than the value, the end begins in front of the text, and is all of
it. -/
theorem holds_endsWith (hNe : v ≠ []) :
    (endsWith e v).holds d n = true ↔ v <:+ (e.value d n).toText d := by
  have hPositive : 0 < v.length := List.length_pos_iff.mpr hNe
  have hLength : (Expr.call .stringLength [e]).value d n =
      .number (some ((e.value d n).toText d).length) := by
    rw [Expr.value, valuesOf, valuesOf]
    rfl
  have hStart : (if v.length - 1 = 0 then Expr.call .stringLength [e]
      else .binary .minus (.call .stringLength [e]) (.number (v.length - 1))).value d n =
      .number (some (((e.value d n).toText d).length - (v.length - 1 : Nat))) := by
    split
    · rename_i hZero
      rw [hLength, hZero, Int.natCast_zero, Int.sub_zero]
    · rw [Expr.value, hLength, Expr.value]
      rfl
  have hEnd : (Expr.call .substring [e, if v.length - 1 = 0 then Expr.call .stringLength [e]
      else .binary .minus (.call .stringLength [e]) (.number (v.length - 1))]).value d n =
      .text (((e.value d n).toText d).drop (((e.value d n).toText d).length - v.length)) := by
    have hDrop (l : Nat) : ((l : Int) - (v.length - 1 : Nat) - 1).toNat = l - v.length := by
      omega
    rw [Expr.value, valuesOf, valuesOf, valuesOf, hStart, CoreFunction.apply, hDrop]
  rw [endsWith, holds_equals_quote, hEnd, Value.equals, decide_eq_true_iff, eq_comm,
    ← List.suffix_iff_eq_drop]

/-- A condition that is guarded by the translation holds where the guard is not met and it holds
itself. -/
theorem holds_unless {excluded p : Prop} [Decidable excluded]
    (h : ¬ excluded → (e.holds d n = true ↔ p)) :
    (if excluded then Expr.never else e).holds d n = true ↔ ¬ excluded ∧ p := by
  split
  · rename_i hExcluded
    exact iff_of_false Bool.false_ne_true fun hBoth => hBoth.1 hExcluded
  · rename_i hFree
    rw [h hFree, and_iff_right hFree]

/-- Equality is asked of the whole value of an expression, and everything else of its text. -/
theorem holds_comparisonCondition (c : Comparison) :
    (comparisonCondition e c).holds d n = true ↔
      (c.operator.allowsEqual = true ∧ (e.value d n).equals d (.text c.value) = true) ∨
        c.Finds ((e.value d n).toText d) := by
  obtain ⟨operator, v⟩ := c
  cases operator with
  | equals =>
      rw [comparisonCondition, holds_equals_quote]
      simp [Comparison.Finds, AttributeOperator.allowsEqual]
  | includes =>
      have hWord (hFree : ¬ (v = [] ∨ v.any isSpace = true)) :
          (Expr.hasWord e v).holds d n = true ↔ v ∈ words ((e.value d n).toText d) := by
        rw [not_or] at hFree
        refine holds_hasWord_iff_mem hFree.1 fun hSpace => hFree.2 ?_
        exact List.any_eq_true.mpr ⟨' ', hSpace, rfl⟩
      rw [comparisonCondition, holds_unless hWord, not_or, Bool.not_eq_true, and_assoc]
      simp [Comparison.Finds, AttributeOperator.allowsEqual]
  | dashMatch =>
      rw [comparisonCondition, holds_group, holds_anyOf]
      simp [Comparison.Finds, AttributeOperator.allowsEqual, holds_equals_quote, holds_startsWith]
  | beginning =>
      rw [comparisonCondition, holds_unless fun _ => holds_startsWith v]
      simp [Comparison.Finds, AttributeOperator.allowsEqual]
  | ending =>
      rw [comparisonCondition, holds_unless fun hNe => holds_endsWith hNe]
      simp [Comparison.Finds, AttributeOperator.allowsEqual]
  | inside =>
      rw [comparisonCondition, holds_unless fun _ => holds_contains v]
      simp [Comparison.Finds, AttributeOperator.allowsEqual]

end

section

variable {r : Resolver} {name : Text} {qualifier : Qualifier} {path : LocationPath}
variable {d : Document} {p : Address}

/-- The path of an attribute test leads to the attributes that the test speaks of. -/
theorem nodes_attributePath (h : attributePath r name qualifier = .ok path) :
    path.nodes d (.tree p) = d.attributeNodes (speaksOf r name qualifier) p := by
  have hPlain : (plainAttribute name).nodes d (.tree p) =
      d.attributeNodes (speaksOf r name .absent) p := by
    rw [plainAttribute]
    split
    · rename_i hBare
      rw [nodes_attributeNamed]
      congr 1
      funext a
      simp [speaksOf, hBare]
    · rename_i hBare
      refine nodes_attributesWith isCondition_nameIs fun n => ?_
      rw [holds_nameIs]
      simp [speaksOf, hBare]
  cases qualifier with
  | absent | noNamespace =>
      cases h
      exact hPlain
  | any =>
      cases h
      exact nodes_attributesWith isCondition_localNameIs fun n => holds_localNameIs name
  | named key =>
      rw [attributePath] at h
      split at h <;> cases h
      rename_i uri hUri
      refine nodes_attributesWith (isCondition_allOf ?_) fun n => ?_
      · simp [isCondition_localNameIs, isCondition_namespaceIs]
      · rw [Bool.eq_iff_iff, holds_allOf]
        simpa [speaksOf, holds_localNameIs, holds_namespaceIs, hUri] using
          fun _ => eq_comm

/-- Equality asks every attribute that the test speaks of, and every other operator asks only the
first of them. -/
theorem holds_comparison (c : Comparison) (hElement : d.HasElement p)
    (h : attributePath r name qualifier = .ok path) :
    (comparisonCondition (.path path) c).holds d (.tree p) = true ↔
      (c.operator.allowsEqual = true ∧
        ∃ a ∈ d.attributesNamed (speaksOf r name qualifier) p, a.value = c.value) ∨
      ∃ a ∈ (d.attributesNamed (speaksOf r name qualifier) p).head?, c.Finds a.value := by
  have hValue : (Expr.path path).value d (.tree p) =
      .nodes (d.attributeNodes (speaksOf r name qualifier) p) := by
    rw [Expr.value, ← nodes_attributePath h]
    rfl
  rw [holds_comparisonCondition, hValue, Document.equals_attributeNodes,
    Document.toText_attributeNodes hElement]
  refine or_congr Iff.rfl ?_
  cases (d.attributesNamed (speaksOf r name qualifier) p).head? with
  | none => simpa using c.not_finds_nil
  | some a => simp

/-- Of a name in one namespace or in none, an element has one attribute at most. -/
theorem length_attributesNamed_le_one (hQualifier : qualifier ≠ .any)
    (hDistinct : d.HasDistinctAttributes p) :
    (d.attributesNamed (speaksOf r name qualifier) p).length ≤ 1 := by
  have hSame {a b : NodeName} (ha : speaksOf r name qualifier a = true)
      (hb : speaksOf r name qualifier b = true) :
      a.written = b.written ∨ a.localPart = b.localPart ∧ a.uri = b.uri := by
    cases qualifier with
    | absent | noNamespace =>
        rw [speaksOf] at ha hb
        split at ha
        · rename_i hBare
          rw [if_pos hBare] at hb
          simp only [Bool.and_eq_true, decide_eq_true_iff] at ha hb
          exact .inr ⟨ha.1.trans hb.1.symm, ha.2.trans hb.2.symm⟩
        · rename_i hBare
          rw [if_neg hBare, decide_eq_true_iff] at hb
          exact .inl ((of_decide_eq_true ha).trans hb.symm)
    | any => exact absurd rfl hQualifier
    | named key =>
        simp only [speaksOf, Bool.and_eq_true, decide_eq_true_iff] at ha hb
        exact .inr ⟨ha.1.trans hb.1.symm, Except.ok.inj (ha.2.symm.trans hb.2)⟩
  have hNone : (d.attributesNamed (speaksOf r name qualifier) p).Pairwise fun _ _ => False := by
    refine List.Pairwise.imp_of_mem (fun ha hb hDiffer => ?_) (hDistinct.filter _)
    rcases hSame (List.mem_filter.mp ha).2 (List.mem_filter.mp hb).2 with hWritten | hMeant
    · exact hDiffer.1 hWritten
    · exact hDiffer.2 hMeant
  match hList : d.attributesNamed (speaksOf r name qualifier) p with
  | [] => exact Nat.zero_le 1
  | [_] => exact Nat.le_refl 1
  | a :: b :: more =>
      rw [hList, List.pairwise_cons] at hNone
      exact (hNone.1 b List.mem_cons_self).elim

/-- Of one attribute, all is asked that there is to ask. -/
theorem accepts_of_length_le_one {c : Comparison} {list : List Attribute}
    (hOne : list.length ≤ 1) :
    ((c.operator.allowsEqual = true ∧ ∃ a ∈ list, a.value = c.value) ∨
      ∃ a ∈ list.head?, c.Finds a.value) ↔ ∃ a ∈ list, c.Accepts a.value := by
  match list, hOne with
  | [], _ => simp
  | [a], _ => simp [Comparison.Accepts]

end

section

variable {r : Resolver} {around : Surroundings}

/-- A test becomes one condition, which is read again from its text. -/
theorem simpleConditions_attribute {name : Text} {qualifier : Qualifier} {path : LocationPath}
    (around : Surroundings) (h : attributePath r name qualifier = .ok path)
    (comparison : Option Comparison) :
    simpleConditions r around (.attribute ⟨name, qualifier, comparison⟩) =
        .ok [comparison.elim (.path path) (comparisonCondition (.path path))] ∧
      (comparison.elim (.path path) (comparisonCondition (.path path))).IsReadingOf
        (comparison.elim (.path path) (comparisonCondition (.path path))).text := by
  have hCondition : attributeCondition r ⟨name, qualifier, comparison⟩ =
      .ok (comparison.elim (.path path) (comparisonCondition (.path path))) := by
    rw [attributeCondition, h]
    cases comparison <;> rfl
  obtain ⟨type, -, hFits⟩ := isCondition_attributeCondition hCondition
  refine ⟨?_, isReadingOf_text hFits⟩
  rw [simpleConditions, hCondition]
  rfl

/-- A test of an attribute without namespace or in one that is bound holds of exactly those elements
that have the attribute, with a value that the operator accepts. -/
theorem holds_attribute_iff {test : AttributeTest} (hOne : test.qualifier ≠ .any)
    (hBound : ∀ key, test.qualifier = .named key → ∃ uri, r.namespaceOf key = .ok uri) :
    ∃ condition, simpleConditions r around (.attribute test) = .ok [condition] ∧
      condition.IsReadingOf condition.text ∧
      ∀ d p, d.HasElement p → d.HasDistinctAttributes p →
        (condition.holds d (.tree p) = true ↔
          ∃ a ∈ d.attributes p, speaksOf r test.name test.qualifier a.name = true ∧
            ∀ c ∈ test.comparison, c.Accepts a.value) := by
  obtain ⟨name, qualifier, comparison⟩ := test
  obtain ⟨path, hPath⟩ : ∃ path, attributePath r name qualifier = .ok path := by
    cases qualifier with
    | absent | noNamespace => exact ⟨_, rfl⟩
    | any => exact absurd rfl hOne
    | named key =>
        obtain ⟨uri, hUri⟩ := hBound key rfl
        rw [attributePath, hUri]
        exact ⟨_, rfl⟩
  obtain ⟨hEmitted, hReading⟩ := simpleConditions_attribute around hPath comparison
  refine ⟨_, hEmitted, hReading, fun d p hElement hDistinct => ?_⟩
  have hNamed (f : Attribute → Prop) :
      (∃ a ∈ d.attributes p, speaksOf r name qualifier a.name = true ∧ f a) ↔
        ∃ a ∈ d.attributesNamed (speaksOf r name qualifier) p, f a := by
    simp only [Document.attributesNamed, List.mem_filter, and_assoc]
  rw [hNamed]
  cases comparison with
  | none =>
      rw [Option.elim_none, holds_path, nodes_attributePath hPath, ← toTruth_nodes,
        Document.toTruth_attributeNodes]
      simp
  | some c =>
      rw [Option.elim_some, holds_comparison c hElement hPath,
        accepts_of_length_le_one (length_attributesNamed_le_one hOne hDistinct)]
      simp

/-- An element that has attributes of one local name in two namespaces. -/
def twoNamespaces : Document :=
  let named (written uri value : String) : Attribute :=
    ⟨⟨written.toList, ['a'], uri.toList⟩, value.toList⟩
  ⟨[.element ⟨['e'], ['e'], []⟩ [named "p:a" "P" "x", named "q:a" "Q" "vw"] []]⟩

/-- The second attribute is asked about where its namespace is named. -/
theorem holds_attribute_iff_of_prefix :
    ∃ condition, simpleConditions (.ofBindings [(['k'], ['Q'])]) ⟨0, none⟩
        (.attribute ⟨['a'], .named ['k'], some ⟨.ending, ['w']⟩⟩) = .ok [condition] ∧
      condition.holds twoNamespaces (.tree [0]) = true := by
  have hBound (key : Text) (hKey : Qualifier.named ['k'] = .named key) :
      ∃ uri, (Resolver.ofBindings [(['k'], ['Q'])]).namespaceOf key = .ok uri := by
    cases hKey
    exact ⟨['Q'], rfl⟩
  obtain ⟨condition, hCondition, -, hHolds⟩ := @holds_attribute_iff _ ⟨0, none⟩
    ⟨['a'], .named ['k'], some ⟨.ending, ['w']⟩⟩ (by decide) hBound
  exact ⟨condition, hCondition, (hHolds twoNamespaces [0] (by decide) (by decide)).mpr (by decide)⟩

/-- A name in any namespace may be that of several attributes. An equation is asked of all of them,
but only the first is asked whether the value is found inside of it. -/
theorem holds_attribute_of_any (name : Text) (c : Comparison) :
    ∃ condition, simpleConditions r around (.attribute ⟨name, .any, some c⟩) = .ok [condition] ∧
      condition.IsReadingOf condition.text ∧
      ∀ d p, d.HasElement p → ∀ list, list = d.attributesNamed (·.localPart = name) p →
        (condition.holds d (.tree p) = true ↔
          (∃ a ∈ list.head?, c.Accepts a.value) ∨
            (c.operator = .equals ∨ c.operator = .dashMatch) ∧ ∃ a ∈ list, a.value = c.value) ∧
        (condition.holds d (.tree p) = true → ∃ a ∈ list, c.Accepts a.value) ∧
        (c.operator = .equals ∨ list.length ≤ 1 → (∃ a ∈ list, c.Accepts a.value) →
          condition.holds d (.tree p) = true) := by
  have hPath : attributePath r name .any = .ok (.attributesWith (.localNameIs name)) := rfl
  obtain ⟨hEmitted, hReading⟩ := simpleConditions_attribute around hPath (some c)
  refine ⟨_, hEmitted, hReading, fun d p hElement list hList => ?_⟩
  have hEqual : c.operator.allowsEqual = true ↔ c.operator = .equals ∨ c.operator = .dashMatch := by
    cases c.operator <;> simp [AttributeOperator.allowsEqual]
  have hHolds := holds_comparison c hElement hPath
  obtain rfl : list = d.attributesNamed (speaksOf r name .any) p := hList
  generalize d.attributesNamed (speaksOf r name .any) p = list at hHolds ⊢
  rw [Option.elim_some, hHolds]
  refine ⟨?_, ?_, ?_⟩
  · rw [← hEqual]
    constructor
    · rintro (hEquation | ⟨a, ha, hFinds⟩)
      · exact .inr hEquation
      · exact .inl ⟨a, ha, .inr hFinds⟩
    · rintro (⟨a, ha, hAccepts⟩ | hEquation)
      · rcases hAccepts with ⟨hAllows, hValue⟩ | hFinds
        · exact .inl ⟨hAllows, a, List.mem_of_mem_head? ha, hValue⟩
        · exact .inr ⟨a, ha, hFinds⟩
      · exact .inl hEquation
  · rintro (⟨hAllows, a, ha, hValue⟩ | ⟨a, ha, hFinds⟩)
    · exact ⟨a, ha, .inl ⟨hAllows, hValue⟩⟩
    · exact ⟨a, List.mem_of_mem_head? ha, .inr hFinds⟩
  · rintro (hEquals | hOne) hAccepted
    · obtain ⟨a, ha, hAccepts⟩ := hAccepted
      obtain ⟨operator, v⟩ := c
      obtain rfl : operator = .equals := hEquals
      obtain ⟨-, hValue⟩ := hAccepts.resolve_right id
      exact .inl ⟨rfl, a, ha, hValue⟩
    · exact (accepts_of_length_le_one hOne).mpr hAccepted

/-- An equation is asked of the second attribute too. -/
theorem holds_attribute_of_any_of_equation :
    ∃ condition, simpleConditions Registry.empty.toResolver ⟨0, none⟩
        (.attribute ⟨['a'], .any, some ⟨.equals, "vw".toList⟩⟩) = .ok [condition] ∧
      condition.holds twoNamespaces (.tree [0]) = true := by
  obtain ⟨condition, hCondition, -, hHolds⟩ :=
    @holds_attribute_of_any Registry.empty.toResolver ⟨0, none⟩ ['a'] ⟨.equals, "vw".toList⟩
  exact ⟨condition, hCondition, (hHolds twoNamespaces [0] (by decide) _ rfl).1.mpr (by decide)⟩

/-- The second of the attributes begins with the value, and yet the condition does not hold. -/
theorem not_holds_attribute_of_second :
    ∃ condition, simpleConditions Registry.empty.toResolver ⟨0, none⟩
        (.attribute ⟨['a'], .any, some ⟨.beginning, ['v']⟩⟩) = .ok [condition] ∧
      ¬ (condition.holds twoNamespaces (.tree [0]) = true ↔
        ∃ a ∈ twoNamespaces.attributes [0], a.name.localPart = ['a'] ∧
          Comparison.Accepts a.value ⟨.beginning, ['v']⟩) :=
  ⟨_, rfl, by decide⟩

end

end Translate

end SelectorXPath
