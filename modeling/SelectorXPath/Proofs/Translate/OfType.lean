import SelectorXPath.Proofs.Translate.Counting
import SelectorXPath.Proofs.XPath.Names

/-! Pseudo-classes that look for siblings of the same type. Which siblings these are is a matter of
the type selector: it compares the names of elements by what it knows of the name that it asks for,
and so do they. Where it names a namespace, and in a default namespace, they compare the names as
they are meant; otherwise the local parts alone, or the names as they are written. -/

namespace SelectorXPath

open SelectorXPath.Text SelectorXPath.XPath

/-- By what the names of two elements are compared. -/
inductive Likeness where
  /-- The names as they are written, with their prefixes. -/
  | written
  /-- The local parts, whatever the namespaces are. -/
  | localPart
  /-- The local parts and the namespaces. -/
  | expanded
  deriving DecidableEq, Repr

namespace Likeness

def Relates : Likeness → NodeName → NodeName → Prop
  | .written, a, b => a.written = b.written
  | .localPart, a, b => a.localPart = b.localPart
  | .expanded, a, b => a.localPart = b.localPart ∧ a.uri = b.uri

instance (l : Likeness) (a b : NodeName) : Decidable (l.Relates a b) :=
  match l with
  | .written => inferInstanceAs (Decidable (a.written = b.written))
  | .localPart => inferInstanceAs (Decidable (a.localPart = b.localPart))
  | .expanded => inferInstanceAs (Decidable (a.localPart = b.localPart ∧ a.uri = b.uri))

/-- An element is like itself, whatever is compared. -/
theorem Relates.refl (l : Likeness) (a : NodeName) : l.Relates a a := by
  cases l <;> simp [Relates]

/-- What a type selector knows of the name that it asks for. -/
def of (r : Resolver) : Qualifier → Likeness
  | .absent =>
      match r.default? with
      | some uri => if uri = [] then .written else .expanded
      | none => .written
  | .any => .localPart
  | .noNamespace | .named _ => .expanded

end Likeness

namespace Document

variable (d : Document) (l : Likeness)

/-- The siblings of an element whose names are like its own, in the order of the document. The
element itself is one of them. -/
def alike : Address → List Address
  | [] => []
  | i :: parent =>
      (d.childAddresses parent).filter fun q =>
        d.HasElement q ∧ l.Relates (d.nameOf (.tree (i :: parent))) (d.nameOf (.tree q))

/-- Where an element stands among those, from the start or from the end, the first being one. -/
def place (fromEnd : Bool) (p : Address) : Nat :=
  (if fromEnd then (d.alike l p).reverse else d.alike l p).idxOf p + 1

end Document

/-- The pseudo-classes that compare types. -/
inductive OfType where
  | first
  | last
  | only
  | nth (positions : AnPlusB)
  | nthLast (positions : AnPlusB)

namespace OfType

def simple : OfType → Simple
  | .first => .pseudo .firstOfType
  | .last => .pseudo .lastOfType
  | .only => .pseudo .onlyOfType
  | .nth positions => .nth .ofType positions
  | .nthLast positions => .nth .lastOfType positions

/-- The place that an element must have among those of its type, as it is counted from the start
and from the end. -/
def Admits (front back : Nat) : OfType → Prop
  | .first => front = 1
  | .last => back = 1
  | .only => front = 1 ∧ back = 1
  | .nth positions => ∃ k : Nat, (front : Int) = positions.a * k + positions.b
  | .nthLast positions => ∃ k : Nat, (back : Int) = positions.a * k + positions.b

instance (front back : Nat) (asked : OfType) : Decidable (asked.Admits front back) :=
  match asked with
  | .first => inferInstanceAs (Decidable (front = 1))
  | .last => inferInstanceAs (Decidable (back = 1))
  | .only => inferInstanceAs (Decidable (front = 1 ∧ back = 1))
  | .nth _ | .nthLast _ => decidable_of_iff _ AnPlusB.selects_iff_exists

end OfType

namespace Translate

section

variable {r : Resolver} {name : Text} {qualifier : Qualifier} {tests : List Expr}
variable {d : Document} {n m : Node} {p : Address}

/-- Once one element passes a type test, others pass it if their names are like its own. -/
theorem passes_iff_relates (hTests : typeConditions r name qualifier = .ok tests)
    (hPasses : ∀ e ∈ tests, e.holds d n = true) :
    (∀ e ∈ tests, e.holds d m = true) ↔
      (Likeness.of r qualifier).Relates (d.nameOf n) (d.nameOf m) := by
  have hWritten (h : ∀ e ∈ [Expr.nameIs name], e.holds d n = true) :
      (∀ e ∈ [Expr.nameIs name], e.holds d m = true) ↔
        Likeness.written.Relates (d.nameOf n) (d.nameOf m) := by
    simp only [List.forall_mem_singleton, holds_nameIs, decide_eq_true_iff] at h ⊢
    rw [Likeness.Relates, h, eq_comm]
  have hExpanded (uri : Text)
      (h : ∀ e ∈ [Expr.localNameIs name, .namespaceIs uri], e.holds d n = true) :
      (∀ e ∈ [Expr.localNameIs name, .namespaceIs uri], e.holds d m = true) ↔
        Likeness.expanded.Relates (d.nameOf n) (d.nameOf m) := by
    rw [List.forall_mem_cons, List.forall_mem_singleton, holds_localNameIs, holds_namespaceIs,
      decide_eq_true_iff, decide_eq_true_iff] at h ⊢
    rw [Likeness.Relates, h.1, h.2]
    exact and_congr eq_comm eq_comm
  cases qualifier with
  | absent =>
      rw [typeConditions] at hTests
      rw [Likeness.of]
      split at hTests
      · rename_i uri hDefault
        split at hTests
        · rename_i hEmpty
          cases hTests
          simpa [hDefault, hEmpty] using hWritten hPasses
        · rename_i hUri
          cases hTests
          simpa [hDefault, hUri] using hExpanded uri hPasses
      · rename_i hDefault
        cases hTests
        simpa [hDefault] using hWritten hPasses
  | any =>
      cases hTests
      simp only [List.forall_mem_singleton, holds_localNameIs, decide_eq_true_iff] at hPasses ⊢
      rw [Likeness.of, Likeness.Relates, hPasses, eq_comm]
  | noNamespace =>
      cases hTests
      exact hExpanded [] hPasses
  | named key =>
      rw [typeConditions] at hTests
      split at hTests <;> cases hTests
      exact hExpanded _ hPasses

/-- So the elements that are counted are those whose names are like that of the element. -/
theorem counted_eq_alike (hTests : typeConditions r name qualifier = .ok tests)
    (hElement : d.HasElement p) (hPasses : ∀ e ∈ tests, e.holds d (.tree p) = true) :
    d.counted tests p = d.alike (Likeness.of r qualifier) p := by
  cases p with
  | nil => rfl
  | cons i parent =>
      refine List.filter_congr fun q _ => decide_eq_decide.mpr ?_
      rw [Document.IsCounted, passes_iff_relates hTests hPasses]
      constructor
      · rintro (rfl | hCounted)
        · exact ⟨hElement, Likeness.Relates.refl _ _⟩
        · exact hCounted
      · exact .inr

/-- The place of an element is one more than the number of siblings that pass the type test in front
of it. -/
theorem place_eq (hTests : typeConditions r name qualifier = .ok tests)
    (hElement : d.HasElement p) (hPasses : ∀ e ∈ tests, e.holds d (.tree p) = true)
    (fromEnd : Bool) :
    d.place (Likeness.of r qualifier) fromEnd p =
      ((d.siblings fromEnd p).filter fun q => d.IsCounted tests q).length + 1 := by
  rw [Document.place, ← counted_eq_alike hTests hElement hPasses,
    Document.idxOf_counted fromEnd hElement]

/-- No sibling on one side satisfies the tests. -/
theorem holds_noneOf_siblings (behind : Bool) (h : ∀ e ∈ tests, e.IsCondition conditionLevel) :
    (noneOf ((LocationPath.elements (siblingAxis behind)).restrict tests)).holds d (.tree p) =
        true ↔
      ((d.siblings behind p).filter fun q => d.IsCounted tests q).length = 0 := by
  rw [noneOf, holds_negation, ← Bool.not_eq_true, holds_path, nodes_restrict_siblings behind h,
    List.length_eq_zero_iff]
  simp [List.eq_nil_iff_forall_not_mem]

end

/-- The conditions of a pseudo-class that compares types, where `siblings` are those on either side
that have the type. -/
def conditionsOfType (siblings : Bool → LocationPath) : OfType → List Expr
  | .first => [noneOf (siblings false)]
  | .last => [noneOf (siblings true)]
  | .only => [noneOf (siblings false), noneOf (siblings true)]
  | .nth positions => positionConditions (siblings false) positions
  | .nthLast positions => positionConditions (siblings true) positions

/-- The conditions can be used as predicates. -/
theorem isCondition_conditionsOfType {siblings : Bool → LocationPath}
    (h : ∀ behind, (siblings behind).isShaped = true) (asked : OfType) :
    ∀ e ∈ conditionsOfType siblings asked, e.IsCondition conditionLevel := by
  cases asked with
  | first | last => exact List.forall_mem_singleton.mpr (isCondition_noneOf (h _))
  | only =>
      rw [conditionsOfType, List.forall_mem_cons, List.forall_mem_singleton]
      exact ⟨isCondition_noneOf (h false), isCondition_noneOf (h true)⟩
  | nth positions | nthLast positions => exact isCondition_positionConditions positions (h _)

section

variable {r : Resolver} {around : Surroundings} {name : Text} {qualifier : Qualifier}
variable {tests : List Expr}

/-- Every pseudo-class that compares types is translated in this one way. -/
theorem simpleConditions_ofType (hType : around.type? = some (name, qualifier))
    (hTests : typeConditions r name qualifier = .ok tests) (asked : OfType) :
    simpleConditions r around asked.simple =
      .ok (conditionsOfType
        (fun behind => (LocationPath.elements (siblingAxis behind)).restrict tests) asked) := by
  cases asked with
  | first | last | only =>
      simp only [OfType.simple, simpleConditions, pseudoConditions,
        siblingsOfType_eq hType hTests]
      rfl
  | nth positions | nthLast positions =>
      simp only [OfType.simple, simpleConditions, countedSiblings, siblingsOfType_eq hType hTests]
      rfl

/-- The pseudo-classes that compare types go by the place of an element among those of its siblings
that are alike, and by nothing else. -/
theorem holds_ofType_iff (hType : around.type? = some (name, qualifier))
    (hTests : typeConditions r name qualifier = .ok tests) (asked : OfType) :
    ∃ conditions, simpleConditions r around asked.simple = .ok conditions ∧
      (Expr.allOf conditions).IsReadingOf (Expr.allOf conditions).text ∧
      ∀ d p, d.HasElement p → (∀ e ∈ tests, e.holds d (.tree p) = true) →
        ((Expr.allOf conditions).holds d (.tree p) = true ↔
          asked.Admits (d.place (Likeness.of r qualifier) false p)
            (d.place (Likeness.of r qualifier) true p)) := by
  have hEach := isCondition_typeConditions hTests
  have hShaped (behind : Bool) :
      ((LocationPath.elements (siblingAxis behind)).restrict tests).isShaped = true :=
    isShaped_restrict rfl rfl hEach
  obtain ⟨type, -, hFits⟩ := isCondition_allOf (isCondition_conditionsOfType hShaped asked)
  refine ⟨_, simpleConditions_ofType hType hTests asked, isReadingOf_text hFits, ?_⟩
  intro d p hElement hPasses
  have hCount (behind : Bool) := value_count_siblings (d := d) (p := p) behind hEach
  rw [holds_allOf, place_eq hTests hElement hPasses, place_eq hTests hElement hPasses]
  cases asked with
  | first | last =>
      rw [conditionsOfType, List.forall_mem_singleton, holds_noneOf_siblings _ hEach,
        OfType.Admits, Nat.add_eq_right]
  | only =>
      rw [conditionsOfType, List.forall_mem_cons, List.forall_mem_singleton,
        holds_noneOf_siblings _ hEach, holds_noneOf_siblings _ hEach, OfType.Admits,
        Nat.add_eq_right, Nat.add_eq_right]
  | nth positions | nthLast positions =>
      rw [conditionsOfType, holds_positionConditions positions (hCount _),
        AnPlusB.selects_iff_exists, OfType.Admits]
      rfl

/-- An element with three others inside. All of them have one local name, the first and the third
also one namespace, and no two are written alike. -/
def threeTypes : Document :=
  let named (written uri : String) : Tree :=
    .element ⟨written.toList, ['a'], uri.toList⟩ [] []
  ⟨[.element ⟨['e'], ['e'], []⟩ [] [named "a" "U", named "p:a" "V", named "q:a" "U"]]⟩

/-- Of two elements in one namespace the first is the second from the end. The element between them
is of another type. -/
theorem holds_ofType_iff_of_prefix :
    ∃ conditions, simpleConditions (.ofBindings [(['k'], ['U'])]) ⟨0, some (['a'], .named ['k'])⟩
        (OfType.nthLast ⟨2, 0⟩).simple = .ok conditions ∧
      (Expr.allOf conditions).holds threeTypes (.tree [0, 0]) = true ∧
      ¬ (Expr.allOf conditions).holds threeTypes (.tree [2, 0]) = true := by
  have hTests : typeConditions (.ofBindings [(['k'], ['U'])]) ['a'] (.named ['k']) =
      .ok [.localNameIs ['a'], .namespaceIs ['U']] := rfl
  have hType : (⟨0, some (['a'], .named ['k'])⟩ : Surroundings).type? =
      some (['a'], .named ['k']) := rfl
  obtain ⟨conditions, hConditions, -, hHolds⟩ := holds_ofType_iff hType hTests (.nthLast ⟨2, 0⟩)
  refine ⟨conditions, hConditions, ?_, fun h => ?_⟩
  · exact (hHolds threeTypes [0, 0] (by decide) (by decide)).mpr (by decide)
  · exact absurd ((hHolds threeTypes [2, 0] (by decide) (by decide)).mp h) (by decide)

/-- Namespaces are not always told apart: in any namespace, the second element is not the first of
its type, though no other has its namespace. Nor are they always recognized: without a default
namespace, the first element is the last of its type, though the third has its local part and its
namespace. -/
theorem not_holds_ofType_iff_expanded :
    (∃ conditions, simpleConditions Registry.empty.toResolver ⟨0, some (['a'], .any)⟩
        OfType.first.simple = .ok conditions ∧
      typeConditions Registry.empty.toResolver ['a'] .any = .ok [.localNameIs ['a']] ∧
      (Expr.localNameIs ['a']).holds threeTypes (.tree [1, 0]) = true ∧
      ¬ ((Expr.allOf conditions).holds threeTypes (.tree [1, 0]) = true ↔
        OfType.first.Admits (threeTypes.place .expanded false [1, 0])
          (threeTypes.place .expanded true [1, 0]))) ∧
    ∃ conditions, simpleConditions Registry.empty.toResolver ⟨0, some (['a'], .absent)⟩
        OfType.last.simple = .ok conditions ∧
      typeConditions Registry.empty.toResolver ['a'] .absent = .ok [.nameIs ['a']] ∧
      (Expr.nameIs ['a']).holds threeTypes (.tree [0, 0]) = true ∧
      ¬ ((Expr.allOf conditions).holds threeTypes (.tree [0, 0]) = true ↔
        OfType.last.Admits (threeTypes.place .expanded false [0, 0])
          (threeTypes.place .expanded true [0, 0])) :=
  ⟨⟨_, rfl, rfl, by decide, by decide⟩, _, rfl, rfl, by decide, by decide⟩

end

end Translate

end SelectorXPath
