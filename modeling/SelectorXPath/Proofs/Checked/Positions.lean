import SelectorXPath.AnPlusB
import SelectorXPath.Proofs.Checked.Text

/-!
# Positions, cut out of bytes

An `an+b` expression is cut at its `n`, in front of it and behind it. The letter takes one byte, so
both cuts lie between characters. Whether a position is selected is computed in 64 bits.
-/

namespace SelectorXPath.Checked

open SelectorXPath.Text

/-- Reads positions from a text that is compact already. -/
def compactPositions (t : Text) : Checked (Option AnPlusB) :=
  if t = "odd".toList then some (some ⟨2, 1⟩)
  else if t = "even".toList then some (some ⟨2, 0⟩)
  else
    match firstByte? (· = 'n') t with
    | none => some ((AnPlusB.readInteger? t).map (AnPlusB.mk 0))
    | some offset => do
      let step ← uptoByte? t offset
      match AnPlusB.readStep? step with
      | none => return none
      | some a =>
        let after ← fromByte? t (offset + 1)
        return (AnPlusB.readOffset? after).map (AnPlusB.mk a)

def positionsOf (t : Text) : Checked (Option AnPlusB) :=
  compactPositions (AnPlusB.compact t)

/-- The cuts at the letter are those that the characters in front of it and behind it are. -/
theorem compactPositions_eq (t : Text) : compactPositions t = some (AnPlusB.readCompact? t) := by
  unfold compactPositions AnPlusB.readCompact?
  split
  · rfl
  split
  · rfl
  cases hFirst : firstByte? (· = 'n') t with
  | none =>
    have hNone := firstByte?_of_none hFirst
    have hDrop : t.dropWhile (· ≠ 'n') = [] :=
      List.dropWhile_eq_nil_iff.mpr fun c hc => by simpa using hNone c hc
    rw [hDrop]
  | some offset =>
    obtain ⟨front, _, back, rfl, hFront, hLetter, rfl⟩ := exists_of_firstByte? hFirst
    obtain rfl := of_decide_eq_true hLetter
    have hOther : ∀ c ∈ front, decide (c ≠ 'n') = true := fun c hc => by simpa using hFront c hc
    have hDrop : (front ++ 'n' :: back).dropWhile (· ≠ 'n') = 'n' :: back := by
      rw [List.dropWhile_append_of_pos hOther]
      rfl
    have hTake : (front ++ 'n' :: back).takeWhile (· ≠ 'n') = front := by
      rw [List.takeWhile_append_of_pos hOther]
      exact List.append_nil front
    have hAfter : fromByte? (front ++ 'n' :: back) (byteLength front + 1) = some back := by
      have hCut := fromByte?_append (front ++ ['n']) back
      rwa [List.append_assoc, byteLength_append] at hCut
    rw [hDrop, hTake]
    simp only [uptoByte?_append, Option.bind_eq_bind, Option.bind_some, hAfter]
    cases AnPlusB.readStep? front with
    | none => rfl
    | some a => cases AnPlusB.readOffset? back <;> rfl

/-- Reading positions has a value for every text, which is the one that is defined. -/
theorem positionsOf_eq (t : Text) : positionsOf t = some (AnPlusB.read? t) :=
  compactPositions_eq (AnPlusB.compact t)

def selects (n : AnPlusB) (position : Int) : Checked Bool := do
  let distance ← signed? (position - n.b)
  if n.a = 0 then return distance = 0
  else
    let quotient ← signed? (distance.tdiv n.a)
    return distance.tmod n.a = 0 && 0 ≤ quotient

/-- A number that fits is not changed. -/
theorem signed?_of_isSome {n : Int} (h : (signed? n).isSome = true) : signed? n = some n := by
  rw [signed?] at h ⊢
  split
  · rfl
  · rename_i hRange
    rw [if_neg hRange] at h
    cases h

/-- Where the difference and the quotient fit into 64 bits, the test has the value that it has for
all numbers. -/
theorem selects_eq {n : AnPlusB} {position : Int}
    (hDistance : (signed? (position - n.b)).isSome = true)
    (hQuotient : (signed? ((position - n.b).tdiv n.a)).isSome = true) :
    selects n position = some (n.selects position) := by
  simp only [selects, AnPlusB.selects, signed?_of_isSome hDistance, Option.bind_eq_bind,
    Option.bind_some, signed?_of_isSome hQuotient]
  split <;> rfl

end SelectorXPath.Checked
