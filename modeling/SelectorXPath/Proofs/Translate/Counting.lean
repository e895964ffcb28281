import SelectorXPath.Proofs.Checked.Positions
import SelectorXPath.Proofs.Positions
import SelectorXPath.Proofs.Translate.Shape
import SelectorXPath.Proofs.XPath.Legible
import SelectorXPath.Proofs.XPath.Siblings

/-! Counted positions. An element has one of the positions `a * k + b` when the conditions on the
number of siblings hold that the positions are translated to. -/

namespace SelectorXPath

/-- Whether positions are counted from the last element on. -/
def Counting.fromEnd : Counting → Bool
  | .child | .ofType => false
  | .lastChild | .lastOfType => true

namespace Translate

open SelectorXPath.Text SelectorXPath.XPath

section

variable {d : Document} {n : Node} {e : Expr} {siblings : LocationPath} {count k : Int}

/-- A comparison with a number holds as the relation of the numbers. -/
theorem holds_compared {operator : Operator} {k : Nat} {r : Int → Int → Prop}
    [DecidableRel r] (hApply : ∀ m m' : Int, operator.apply d (.number (some m))
      (.number (some m')) = .truth (r m m'))
    (hValue : e.value d n = .number (some count)) :
    (Expr.binary operator e (.number k)).holds d n = true ↔ r count k := by
  rw [Expr.holds, Expr.value, hValue, Expr.value, hApply, Value.toTruth, decide_eq_true_iff]

theorem holds_equal {k : Nat} (hValue : e.value d n = .number (some count)) :
    (Expr.binary .equal e (.number k)).holds d n = true ↔ count = k :=
  holds_compared (fun m m' => by simp [Operator.apply, Value.equals, Value.toNumber]) hValue

theorem holds_atLeast {k : Nat} (hValue : e.value d n = .number (some count)) :
    (Expr.binary .atLeast e (.number k)).holds d n = true ↔ k ≤ count :=
  holds_compared (r := fun m m' => m' ≤ m)
    (fun m m' => by simp [Operator.apply, Value.toNumber]) hValue

theorem holds_atMost {k : Nat} (hValue : e.value d n = .number (some count)) :
    (Expr.binary .atMost e (.number k)).holds d n = true ↔ count ≤ k :=
  holds_compared (fun m m' => by simp [Operator.apply, Value.toNumber]) hValue

/-- Truncated or not, the remainder of a multiple is zero. -/
theorem holds_isMultiple {divisor : Nat} (hDivisor : divisor ≠ 0)
    (hValue : e.value d n = .number (some count)) :
    (isMultiple e divisor).holds d n = true ↔ (divisor : Int) ∣ count := by
  have hModulo : (Expr.binary .modulo e (.number divisor)).value d n =
      .number (some (count.tmod divisor)) := by
    have hFilter : (some (divisor : Int)).filter (· ≠ 0) = some (divisor : Int) :=
      Option.filter_eq_some_iff.mpr ⟨rfl, by simpa using hDivisor⟩
    rw [Expr.value, hValue, Expr.value, Operator.apply, Value.toNumber, Value.toNumber, hFilter]
    rfl
  rw [isMultiple, holds_equal hModulo, Int.dvd_iff_tmod_eq_zero]
  rfl

/-- Every number is a multiple of one, so that there the condition may be left out. -/
theorem holds_multiples {isOne : Prop} [Decidable isOne] {divisor : Nat}
    (hOne : isOne → divisor = 1) (hDivisor : divisor ≠ 0)
    (hValue : e.value d n = .number (some count)) :
    (∀ test ∈ (if isOne then [] else [isMultiple e divisor]), test.holds d n = true) ↔
      (divisor : Int) ∣ count := by
  split
  · rename_i hDivides
    simp [hOne hDivides]
  · rw [List.forall_mem_singleton, holds_isMultiple hDivisor hValue]

/-- The condition that is never met holds nowhere. -/
theorem not_holds_never : ¬ Expr.never.holds d n = true :=
  Bool.false_ne_true

/-- Taking off a number has the value that it should have, be it written as a sum or as a
difference. -/
theorem value_countLess
    (hCount : (Expr.call .count [.path siblings]).value d n = .number (some count)) :
    (countLess siblings k).value d n = .number (some (count - k)) := by
  rw [countLess]
  split
  · rename_i hZero
    rw [hCount, hZero, Int.sub_zero]
  · split
    all_goals
      rw [Expr.value, Expr.value, hCount, Expr.value]
      simp only [Operator.apply, Value.toNumber, Option.map₂_some_some]
      congr 2
      omega

/-- The conditions ask whether the position behind so many siblings is selected. -/
theorem holds_positionConditions {siblingCount : Nat} (positions : AnPlusB)
    (hCount : (Expr.call .count [.path siblings]).value d n = .number (some siblingCount)) :
    (∀ e ∈ positionConditions siblings positions, e.holds d n = true) ↔
      positions.selects (siblingCount + 1) = true := by
  rw [positionConditions]
  obtain hStep | hStep | hStep := Int.lt_trichotomy positions.a 0
  · rw [if_neg (Int.ne_of_lt hStep), if_neg (by omega), AnPlusB.selects_iff_of_neg hStep]
    split
    · rw [List.forall_mem_singleton]
      refine iff_of_false not_holds_never ?_
      omega
    · have hOffset : positions.b - (siblingCount + 1) = (positions.b - 1).toNat - siblingCount := by
        omega
      have hDifference : (Expr.group (.binary .minus (.number (positions.b - 1).toNat)
          (.call .count [.path siblings]))).value d n =
          .number (some ((positions.b - 1).toNat - siblingCount)) := by
        rw [Expr.value, Expr.value, hCount, Expr.value]
        rfl
      have hDivisor : ((-positions.a).toNat : Int) = -positions.a :=
        Int.toNat_of_nonneg (by omega)
      rw [List.forall_mem_cons, holds_atMost hCount, hOffset,
        holds_multiples (by omega) (by omega) hDifference, hDivisor]
      refine and_congr_left' ?_
      omega
  · rw [if_pos hStep, AnPlusB.selects, if_pos hStep, decide_eq_true_iff]
    split
    · rw [List.forall_mem_singleton]
      refine iff_of_false not_holds_never ?_
      omega
    · rw [List.forall_mem_singleton, holds_equal hCount]
      omega
  · rw [if_neg (Int.ne_of_gt hStep), if_pos hStep, List.forall_mem_append,
      AnPlusB.selects_iff_of_pos hStep]
    have hOffset : (siblingCount + 1 : Int) - positions.b = siblingCount - (positions.b - 1) := by
      omega
    rw [hOffset, holds_multiples (by omega) (by omega) (value_countLess hCount),
      Int.toNat_of_nonneg (by omega)]
    refine and_congr_left' ?_
    split
    · rw [List.forall_mem_singleton, holds_atLeast hCount]
      omega
    · refine iff_of_true (by simp) ?_
      omega

end

/-- Where the type can be tested, the siblings along an axis are restricted by the tests. -/
theorem siblingsOfType_eq {r : Resolver} {around : Surroundings} {name : Text}
    {qualifier : Qualifier} {tests : List Expr} (hType : around.type? = some (name, qualifier))
    (hTests : typeConditions r name qualifier = .ok tests) (asking : Text) (axis : Axis) :
    siblingsOfType r around asking axis = .ok ((LocationPath.elements axis).restrict tests) := by
  simp only [siblingsOfType, siblingConditions, hType, hTests]
  rfl

/-- The tests that siblings have to satisfy in order to be counted: none, or those that make up the
type test of the compound. -/
def Counts (r : Resolver) (around : Surroundings) (tests : List Expr) : Counting → Prop
  | .child | .lastChild => tests = []
  | .ofType | .lastOfType =>
      ∃ name qualifier, around.type? = some (name, qualifier) ∧
        typeConditions r name qualifier = .ok tests

/-- Where an element stands among the elements that it is counted with, the first being one. -/
def position (d : Document) (counting : Counting) (tests : List Expr) (p : Address) : Nat :=
  (if counting.fromEnd then (d.counted tests p).reverse else d.counted tests p).idxOf p + 1

section

variable {r : Resolver} {around : Surroundings} {tests : List Expr} {counting : Counting}

/-- The tests of those that are counted can be used as predicates. -/
theorem Counts.isCondition (h : Counts r around tests counting) :
    ∀ e ∈ tests, e.IsCondition conditionLevel := by
  cases counting with
  | child | lastChild =>
      obtain rfl := h
      exact List.forall_mem_nil _
  | ofType | lastOfType =>
      obtain ⟨name, qualifier, -, hTests⟩ := h
      exact isCondition_typeConditions hTests

/-- The siblings between an element and the end that positions are counted from are those that pass
the tests. -/
theorem Counts.countedSiblings_eq (h : Counts r around tests counting) :
    countedSiblings r around counting =
      .ok ((LocationPath.elements (siblingAxis counting.fromEnd)).restrict tests) := by
  cases counting with
  | child | lastChild =>
      obtain rfl := h
      rfl
  | ofType | lastOfType =>
      obtain ⟨name, qualifier, hType, hTests⟩ := h
      exact siblingsOfType_eq hType hTests _ _

/-- The condition for `an+b` holds of exactly those elements whose position is selected, and these
are the positions `a * k + b` with `k` not negative. Numbers of 64 bits suffice to tell, where the
distance of the position from `b` and its quotient by `a` are such numbers. -/
theorem holds_nth_iff_selects (h : Counts r around tests counting) (positions : AnPlusB) :
    ∃ conditions, simpleConditions r around (.nth counting positions) = .ok conditions ∧
      (Expr.allOf conditions).IsReadingOf (Expr.allOf conditions).text ∧
      (∀ d p, d.HasElement p →
        ((Expr.allOf conditions).holds d (.tree p) = true ↔
          positions.selects (position d counting tests p) = true)) ∧
      ∀ q : Int, (positions.selects q = true ↔ ∃ k : Nat, q = positions.a * k + positions.b) ∧
        ((Checked.signed? (q - positions.b)).isSome = true →
          (Checked.signed? ((q - positions.b).tdiv positions.a)).isSome = true →
          Checked.selects positions q = some (positions.selects q)) := by
  have hSiblings := h.countedSiblings_eq
  have hConditions := isCondition_positionConditions positions (isShaped_countedSiblings hSiblings)
  have hEmitted : simpleConditions r around (.nth counting positions) =
      .ok (positionConditions
        ((LocationPath.elements (siblingAxis counting.fromEnd)).restrict tests) positions) := by
    rw [simpleConditions, hSiblings]
    rfl
  refine ⟨_, hEmitted, ?_, ?_, fun q => ⟨AnPlusB.selects_iff_exists, Checked.selects_eq⟩⟩
  · obtain ⟨type, -, hFits⟩ := isCondition_allOf hConditions
    exact isReadingOf_text hFits
  · intro d p hElement
    rw [holds_allOf, position, Document.idxOf_counted counting.fromEnd hElement]
    exact holds_positionConditions positions
      (value_count_siblings counting.fromEnd h.isCondition)

/-- An element with four others inside, three of which are of one type. -/
def fourInside : Document :=
  let named (name : String) : List Tree → Tree :=
    .element ⟨name.toList, name.toList, []⟩ []
  ⟨[named "a" [named "b" [], named "c" [], named "b" [], named "b" []]]⟩

/-- The last element of a type and the third from the end, but not the one between them. -/
theorem holds_nth_iff_selects_of_lastOfType :
    ∃ conditions, simpleConditions Registry.empty.toResolver ⟨0, some (['b'], .absent)⟩
        (.nth .lastOfType ⟨-2, 3⟩) = .ok conditions ∧
      (Expr.allOf conditions).holds fourInside (.tree [0, 0]) = true ∧
      ¬ (Expr.allOf conditions).holds fourInside (.tree [2, 0]) = true ∧
      (Expr.allOf conditions).holds fourInside (.tree [3, 0]) = true ∧
      Checked.selects ⟨-2, 3⟩ 3 = some true := by
  have hTests : Counts Registry.empty.toResolver ⟨0, some (['b'], .absent)⟩
      [Expr.nameIs ['b']] .lastOfType := ⟨['b'], .absent, rfl, rfl⟩
  obtain ⟨conditions, hConditions, -, hHolds, hSelects⟩ := holds_nth_iff_selects hTests ⟨-2, 3⟩
  refine ⟨conditions, hConditions, ?_, ?_, ?_, (hSelects 3).2 rfl rfl⟩
  · exact (hHolds fourInside [0, 0] (by decide)).mpr (by decide)
  · exact fun h => absurd ((hHolds fourInside [2, 0] (by decide)).mp h) (by decide)
  · exact (hHolds fourInside [3, 0] (by decide)).mpr (by decide)

end

end Translate

end SelectorXPath
