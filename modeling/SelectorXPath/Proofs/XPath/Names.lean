import SelectorXPath.Proofs.XPath.Axes
import SelectorXPath.Proofs.XPath.Quoted
import SelectorXPath.Proofs.XPath.Selection

/-! Nodes by their names. The attributes of an element that have a name are reached in the order in
which the element has them: an equation asks all of them, and a function is given the text of the
first one. -/

namespace SelectorXPath

open SelectorXPath.Text SelectorXPath.XPath

namespace XPath

section

variable {d : Document} {n : Node} {e : Expr}

/-- A comparison with a quoted text is one with the text. -/
theorem holds_equals_quote (t : Text) :
    (Expr.equals e (quote t)).holds d n = (e.value d n).equals d (.text t) := by
  rw [Expr.holds, Expr.equals, Expr.value, value_quote]
  rfl

/-- The condition compares the name as it is written in the document. -/
theorem holds_nameIs (name : Text) :
    (Expr.nameIs name).holds d n = decide ((d.nameOf n).written = name) :=
  holds_equals_quote name

/-- The condition compares the name without its prefix. -/
theorem holds_localNameIs (name : Text) :
    (Expr.localNameIs name).holds d n = decide ((d.nameOf n).localPart = name) :=
  holds_equals_quote name

/-- The condition compares the namespace, which is empty for a name without any. -/
theorem holds_namespaceIs (uri : Text) :
    (Expr.namespaceIs uri).holds d n = decide ((d.nameOf n).uri = uri) :=
  holds_equals_quote uri

end

end XPath

namespace Document

variable (d : Document) (test : NodeName → Bool)

/-- The attributes of an element whose names pass a test, in the order in which it has them. -/
def attributesNamed (p : Address) : List Attribute :=
  (d.attributes p).filter fun a => test a.name

def attributeOf (n : Node) : Attribute :=
  ⟨d.nameOf n, d.stringValue n⟩

/-- The same attributes as nodes. -/
def attributeNodes (p : Address) : List Node :=
  (Axis.attribute.nodes d (.tree p)).filter fun n => test (d.nameOf n)

variable {d test} {p : Address}

/-- The nodes on the attribute axis stand for the attributes in their order. -/
theorem map_attributeOf_nodes :
    (Axis.attribute.nodes d (.tree p)).map d.attributeOf = d.attributes p := by
  apply List.ext_getElem
  · simp [Axis.nodes]
  · intro i _ hi
    simp [Axis.nodes, attributeOf, nameOf, stringValue, List.getElem?_eq_getElem hi]

theorem map_attributeNodes :
    (d.attributeNodes test p).map d.attributeOf = d.attributesNamed test p := by
  rw [attributesNamed, ← map_attributeOf_nodes, List.filter_map]
  rfl

/-- Only one member of a list has a result, so this is the first result. -/
theorem findSome?_eq_of_mem {α β : Type} {f : α → Option β} {list : List α} {x : α}
    (hMem : x ∈ list) (hOther : ∀ y, y ≠ x → f y = none) : list.findSome? f = f x := by
  cases hResult : f x with
  | none =>
      refine List.findSome?_eq_none_iff.mpr fun y _ => ?_
      by_cases hSame : y = x
      · rw [hSame, hResult]
      · exact hOther y hSame
  | some result =>
      obtain ⟨front, behind, rfl, hFront⟩ := List.eq_append_cons_of_mem hMem
      refine List.findSome?_eq_some_iff.mpr ⟨front, x, behind, rfl, hResult, fun y hy => ?_⟩
      refine hOther y ?_
      rintro rfl
      exact hFront hy

/-- In the order of the document, the attributes of one element keep the order that they have. -/
theorem first?_attributeNodes (h : d.HasElement p) :
    d.first? (d.attributeNodes test p) = (d.attributeNodes test p).head? := by
  have hAddress (n : Node) (hn : n ∈ d.attributeNodes test p) : ∃ i, n = .attribute p i := by
    obtain ⟨i, -, rfl⟩ := List.mem_map.mp (List.mem_filter.mp hn).1
    exact ⟨i, rfl⟩
  have hOther (q : Address) (hq : q ≠ p) :
      (Node.tree q :: Axis.attribute.nodes d (.tree q)).find?
        (fun n => decide (n ∈ d.attributeNodes test p)) = none := by
    rw [List.find?_eq_none]
    intro n hn hMem
    obtain ⟨i, rfl⟩ := hAddress n (of_decide_eq_true hMem)
    rcases List.mem_cons.mp hn with hTree | hn
    · cases hTree
    · obtain ⟨j, -, hSame⟩ := List.mem_map.mp hn
      exact hq (Node.attribute.inj hSame).1
  have hTree : Node.tree p ∉ d.attributeNodes test p := by
    intro hMem
    obtain ⟨i, hSame⟩ := hAddress _ hMem
    cases hSame
  have hOwn : (Node.tree p :: Axis.attribute.nodes d (.tree p)).find?
      (fun n => decide (n ∈ d.attributeNodes test p)) = (d.attributeNodes test p).head? := by
    rw [List.find?_cons, decide_eq_false hTree, ← List.head?_filter]
    refine congrArg List.head? (List.filter_congr fun n hn => ?_)
    rw [Bool.eq_iff_iff, decide_eq_true_iff, attributeNodes, List.mem_filter, and_iff_right hn]
  have hMem : p ∈ [] :: d.descendants [] :=
    List.mem_cons_of_mem _ (d.mem_descendants.mpr ⟨h.isBelow_nil, h.isSome⟩)
  rw [first?, nodes, List.find?_flatMap, findSome?_eq_of_mem hMem hOther, hOwn]

/-- As a text, attributes are the value of the first of them, and without any the empty text. -/
theorem toText_attributeNodes (h : d.HasElement p) :
    (Value.nodes (d.attributeNodes test p)).toText d =
      ((d.attributesNamed test p).head?.map Attribute.value).getD [] := by
  rw [← map_attributeNodes, List.head?_map, Value.toText, first?_attributeNodes h]
  cases (d.attributeNodes test p).head? with
  | none => rfl
  | some n => rfl

/-- Attributes equal a text if one of them does. -/
theorem equals_attributeNodes (t : Text) :
    (Value.nodes (d.attributeNodes test p)).equals d (.text t) = true ↔
      ∃ a ∈ d.attributesNamed test p, a.value = t := by
  rw [← map_attributeNodes, Value.equals, List.any_eq_true]
  simp [attributeOf]

/-- The nodes are true if there is such an attribute. -/
theorem toTruth_attributeNodes :
    (Value.nodes (d.attributeNodes test p)).toTruth = true ↔
      ∃ a, a ∈ d.attributesNamed test p := by
  rw [← map_attributeNodes, toTruth_nodes]
  simp

end Document

namespace XPath

open Document

variable {d : Document} {test : NodeName → Bool} {p : Address} {e : Expr}

/-- Among attributes, which are all that the axis leads to, a condition on the name picks those of
the name. -/
theorem nodes_attributesWith {level : Nat} (h : e.IsCondition level)
    (hTest : ∀ n, e.holds d n = test (d.nameOf n)) :
    (LocationPath.attributesWith e).nodes d (.tree p) = d.attributeNodes test p := by
  have hReach : reach d .attribute .any (.tree p) = Axis.attribute.nodes d (.tree p) := by
    refine List.filter_eq_self.mpr fun n hn => ?_
    obtain ⟨i, -, rfl⟩ := List.mem_map.mp hn
    rfl
  have hNodes : (LocationPath.attributesWith e).nodes d (.tree p) =
      (reach d .attribute .any (.tree p)).filter (e.holds d) := by
    simp only [LocationPath.nodes, LocationPath.attributesWith, LocationPath.groups,
      filter_zipIdx_of_isCondition h]
    simp
  rw [hNodes, hReach]
  exact List.filter_congr fun n _ => hTest n

/-- A name that is written bare is that of an attribute without namespace. -/
theorem nodes_attributeNamed (name : Text) :
    (LocationPath.attributeNamed name).nodes d (.tree p) =
      d.attributeNodes (fun a => a.localPart = name && a.uri = []) p := by
  have hNodes : (LocationPath.attributeNamed name).nodes d (.tree p) =
      reach d .attribute (.named name) (.tree p) := by
    simp [LocationPath.nodes, LocationPath.attributeNamed, LocationPath.groups]
  rw [hNodes]
  refine List.filter_congr fun n hn => ?_
  obtain ⟨i, hi, rfl⟩ := List.mem_map.mp hn
  rw [List.mem_range] at hi
  simp [Axis.isPrincipal, NodeTest.passes, nameOf, List.getElem?_eq_getElem hi]

end XPath

end SelectorXPath
