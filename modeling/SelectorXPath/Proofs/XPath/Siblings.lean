import Mathlib.Data.List.Nodup
import SelectorXPath.Proofs.XPath.Axes
import SelectorXPath.Proofs.XPath.Selection

/-! The siblings of an element that satisfy some conditions, in the order of the document with the
element itself among them, and how XPath counts those on one side of it. -/

namespace SelectorXPath

open SelectorXPath.XPath

namespace Document

variable (d : Document)

instance (p : Address) : Decidable (d.HasElement p) :=
  decidable_of_iff _ passes_any_iff

/-- An element that satisfies all of the tests. -/
def IsCounted (tests : List Expr) (p : Address) : Prop :=
  d.HasElement p ∧ ∀ e ∈ tests, e.holds d (.tree p) = true

instance (tests : List Expr) (p : Address) : Decidable (d.IsCounted tests p) :=
  inferInstanceAs (Decidable (_ ∧ _))

/-- An element, and those of its siblings that satisfy the tests, in the order of the document. -/
def counted (tests : List Expr) : Address → List Address
  | [] => []
  | i :: parent =>
      (d.childAddresses parent).filter fun q => q = i :: parent ∨ d.IsCounted tests q

/-- The siblings on one side of an element, from the nearest on. -/
def siblings (behind : Bool) (p : Address) : List Address :=
  if behind then d.siblingsAfter p else siblingsBefore p

variable {d} {p : Address}

theorem nodup_map_cons {positions : List Nat} (h : positions.Nodup) (parent : Address) :
    (positions.map (· :: parent)).Nodup :=
  h.map fun _ _ hSame => (List.cons.inj hSame).1

/-- No sibling is listed twice. -/
theorem nodup_siblings (behind : Bool) : (d.siblings behind p).Nodup := by
  cases p with
  | nil => cases behind <;> exact List.nodup_nil
  | cons i parent =>
      cases behind with
      | false => exact nodup_map_cons (List.nodup_reverse.mpr List.nodup_range) parent
      | true => exact nodup_map_cons List.nodup_range' parent

/-- No node is a sibling of itself. -/
theorem not_mem_siblings (behind : Bool) : p ∉ d.siblings behind p := by
  cases p with
  | nil => cases behind <;> exact List.not_mem_nil
  | cons i parent =>
      intro hMem
      cases behind with
      | false =>
          obtain ⟨j, hj, hSame⟩ := List.mem_map.mp hMem
          obtain ⟨rfl, -⟩ := List.cons.inj hSame
          exact absurd (List.mem_range.mp (List.mem_reverse.mp hj)) (Nat.lt_irrefl _)
      | true =>
          obtain ⟨j, hj, hSame⟩ := List.mem_map.mp hMem
          obtain ⟨rfl, -⟩ := List.cons.inj hSame
          exact absurd (List.mem_range'_1.mp hj).1 (Nat.not_succ_le_self _)

/-- The siblings of an element lie on both sides of it. -/
theorem childAddresses_eq {i : Nat} {parent : Address} (h : d.HasElement (i :: parent)) :
    d.childAddresses parent =
      (d.siblings false (i :: parent)).reverse ++ (i :: parent) ::
        d.siblings true (i :: parent) := by
  obtain ⟨more, hLength⟩ := Nat.exists_eq_add_of_lt h.lt_length
  have hMore : i + more + 1 - (i + 1) = more := by omega
  have hRange : List.range (i + more + 1) = List.range i ++ i :: List.range' (i + 1) more := by
    rw [List.range_eq_range', List.range_eq_range', Nat.add_assoc, ← List.range'_append_1,
      Nat.zero_add, List.range'_succ]
  have hBefore : d.siblings false (i :: parent) = (List.range i).reverse.map (· :: parent) := rfl
  have hAfter : d.siblings true (i :: parent) =
      (List.range' (i + 1) ((d.children parent).length - (i + 1))).map (· :: parent) := rfl
  rw [childAddresses, hBefore, hAfter, hLength, hMore, hRange, List.map_append, List.map_cons,
    ← List.map_reverse, List.reverse_reverse]

/-- The element itself is not among its siblings. -/
theorem filter_or_self {tests : List Expr} {list : List Address} (h : p ∉ list) :
    list.filter (fun q => q = p ∨ d.IsCounted tests q) =
      list.filter fun q => d.IsCounted tests q := by
  refine List.filter_congr fun q hq => decide_eq_decide.mpr ?_
  have hOther : q ≠ p := by
    rintro rfl
    exact h hq
  simp [hOther]

/-- The elements that are counted are those in front, the element, and those behind. -/
theorem counted_eq {tests : List Expr} (h : d.HasElement p) :
    d.counted tests p =
      ((d.siblings false p).filter fun q => d.IsCounted tests q).reverse ++
        p :: (d.siblings true p).filter fun q => d.IsCounted tests q := by
  cases p with
  | nil =>
      obtain ⟨tree, hTree, -⟩ := h
      cases hTree
  | cons i parent =>
      have hBefore : i :: parent ∉ (d.siblings false (i :: parent)).reverse := by
        rw [List.mem_reverse]
        exact not_mem_siblings false
      rw [counted, childAddresses_eq h, List.filter_append, filter_or_self hBefore,
        List.filter_reverse, List.filter_cons_of_pos (by simp),
        filter_or_self (not_mem_siblings true)]

/-- Where an element stands among those that it is counted with, from the start or from the end. -/
theorem idxOf_counted {tests : List Expr} (fromEnd : Bool) (h : d.HasElement p) :
    (if fromEnd then (d.counted tests p).reverse else d.counted tests p).idxOf p =
      ((d.siblings fromEnd p).filter fun q => d.IsCounted tests q).length := by
  have hMem (behind : Bool) :
      p ∉ ((d.siblings behind p).filter fun q => d.IsCounted tests q).reverse := by
    rw [List.mem_reverse, List.mem_filter]
    exact fun hMem => not_mem_siblings behind hMem.1
  rw [counted_eq h]
  cases fromEnd with
  | false =>
      rw [if_neg Bool.false_ne_true, List.idxOf_append_of_notMem (hMem false),
        List.idxOf_cons_self, Nat.add_zero, List.length_reverse]
  | true =>
      rw [if_pos rfl, List.reverse_append, List.reverse_cons, List.append_assoc,
        List.idxOf_append_of_notMem (hMem true), List.singleton_append, List.idxOf_cons_self,
        Nat.add_zero, List.length_reverse]

end Document

open Document

namespace XPath

variable {d : Document} {p : Address} {n : Node} {path : LocationPath} {tests : List Expr}

/-- The nodes that a restricted step leads to, in the order of its axis. -/
theorem nodes_restrict_elements {axis : Axis}
    (h : ∀ e ∈ tests, e.IsCondition conditionLevel) :
    ((LocationPath.elements axis).restrict tests).nodes d n =
      (reach d axis .any n).filter fun m => ∀ e ∈ tests, e.holds d m = Bool.true := by
  have hStep : (LocationPath.elements axis).nodes d n = reach d axis .any n := by
    simp [LocationPath.nodes, LocationPath.elements, LocationPath.groups]
  rw [LocationPath.restrict]
  split
  · rename_i hEmpty
    obtain rfl : tests = [] := by simpa using hEmpty
    simp [hStep]
  · have hFilter :
        ((LocationPath.elements axis).filter (Expr.allOf tests)).nodes d n =
          (reach d axis .any n).filter ((Expr.allOf tests).holds d) := by
      simp only [LocationPath.nodes, LocationPath.elements, LocationPath.groups,
        filter_zipIdx_of_isCondition (isCondition_allOf h)]
      simp
    rw [hFilter]
    refine List.filter_congr fun m _ => ?_
    rw [Bool.eq_iff_iff, holds_allOf, decide_eq_true_iff]

/-- The axis along which the siblings on one side lie. -/
def siblingAxis (behind : Bool) : Axis :=
  if behind then .followingSibling else .precedingSibling

/-- Along the axis all siblings are reached that are elements. -/
theorem reach_siblingAxis (behind : Bool) :
    reach d (siblingAxis behind) .any (.tree p) =
      ((d.siblings behind p).filter fun q => d.HasElement q).map .tree := by
  have hNodes : (siblingAxis behind).nodes d (.tree p) = (d.siblings behind p).map .tree := by
    cases behind <;> rfl
  rw [reach, hNodes, List.filter_map]
  congr 1
  refine List.filter_congr fun q _ => ?_
  have hPrincipal : (siblingAxis behind).isPrincipal (.tree q) = Bool.true := by
    cases behind <;> rfl
  rw [Function.comp_apply, hPrincipal, Bool.true_and, Bool.eq_iff_iff, passes_any_iff,
    decide_eq_true_iff]

/-- A list without repetition keeps all of its members. -/
theorem eraseDups_eq_self {α : Type} [BEq α] [LawfulBEq α] {list : List α} (h : list.Nodup) :
    list.eraseDups = list := by
  induction list with
  | nil => rfl
  | cons first list ih =>
      obtain ⟨hFirst, hMore⟩ := List.nodup_cons.mp h
      have hFilter : (list.filter fun x => !x == first) = list := by
        refine List.filter_eq_self.mpr fun x hx => ?_
        have hOther : x ≠ first := by
          rintro rfl
          exact hFirst hx
        simp [hOther]
      rw [List.eraseDups_cons, hFilter, ih hMore]

/-- A restricted step along the siblings on one side leads to those that satisfy the tests. -/
theorem nodes_restrict_siblings (behind : Bool) (h : ∀ e ∈ tests, e.IsCondition conditionLevel) :
    ((LocationPath.elements (siblingAxis behind)).restrict tests).nodes d (.tree p) =
      ((d.siblings behind p).filter fun q => d.IsCounted tests q).map .tree := by
  rw [nodes_restrict_elements h, reach_siblingAxis, List.filter_map, List.filter_filter]
  congr 1
  refine List.filter_congr fun q _ => ?_
  rw [Function.comp_apply, Bool.eq_iff_iff, Bool.and_eq_true, decide_eq_true_iff,
    decide_eq_true_iff, decide_eq_true_iff, IsCounted, and_comm]

/-- What is counted are the siblings on one side that satisfy the tests. -/
theorem value_count_siblings (behind : Bool) (h : ∀ e ∈ tests, e.IsCondition conditionLevel) :
    (Expr.call .count [.path ((LocationPath.elements (siblingAxis behind)).restrict tests)]).value
        d (.tree p) =
      .number (some ((d.siblings behind p).filter fun q => d.IsCounted tests q).length) := by
  have hNodup :
      (((d.siblings behind p).filter fun q => d.IsCounted tests q).map Node.tree).Nodup :=
    ((nodup_siblings behind).filter _).map fun _ _ hSame => Node.tree.inj hSame
  have hValue : (Expr.call .count
      [.path ((LocationPath.elements (siblingAxis behind)).restrict tests)]).value d (.tree p) =
      .number (some (((LocationPath.elements (siblingAxis behind)).restrict tests).nodes d
        (.tree p)).eraseDups.length) := rfl
  rw [hValue, nodes_restrict_siblings behind h, eraseDups_eq_self hNodup, List.length_map]

end XPath

end SelectorXPath
