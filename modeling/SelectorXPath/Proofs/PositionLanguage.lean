import Mathlib.Data.List.TakeWhile
import Mathlib.Data.Nat.Digits.Defs
import SelectorXPath.Proofs.Positions

/-! The language of positions. Texts are compared without space and in lower case; what is left is
one of two words, a whole number, or a step in front of the letter with an offset behind it. Each
number is written in decimal digits, and the reader takes exactly those texts of the language whose
numbers fit into 32 bits with sign. -/

namespace SelectorXPath.AnPlusB

open SelectorXPath.Text

/-- ASCII digits, at least one, and the number of which they are the decimal digits. Zeros may stand
in front. -/
structure WritesDigits (digits : Text) (n : Nat) : Prop where
  ne_nil : digits ≠ []
  isAsciiDigit : ∀ c ∈ digits, isAsciiDigit c = true
  value_eq : n = Nat.ofDigits 10 (digits.reverse.map fun c => c.toNat - '0'.toNat)

/-- Digits behind a sign. -/
inductive WritesSigned : Text → Int → Prop where
  | plus {digits : Text} {n : Nat} (h : WritesDigits digits n) : WritesSigned ('+' :: digits) n
  | minus {digits : Text} {n : Nat} (h : WritesDigits digits n) : WritesSigned ('-' :: digits) (-n)

/-- Digits, perhaps behind a sign. -/
inductive WritesInteger : Text → Int → Prop where
  | unsigned {digits : Text} {n : Nat} (h : WritesDigits digits n) : WritesInteger digits n
  | signed {t : Text} {n : Int} (h : WritesSigned t n) : WritesInteger t n

/-- What stands in front of the letter: a number, of which one may be left out, but not its sign. -/
inductive WritesStep : Text → Int → Prop where
  | one : WritesStep [] 1
  | plus : WritesStep ['+'] 1
  | minus : WritesStep ['-'] (-1)
  | number {t : Text} {n : Int} (h : WritesInteger t n) : WritesStep t n

/-- What stands behind the letter: nothing, or a number with its sign. -/
inductive WritesOffset : Text → Int → Prop where
  | zero : WritesOffset [] 0
  | number {t : Text} {n : Int} (h : WritesSigned t n) : WritesOffset t n

/-- `odd`, `even`, `b`, `an`, `an+b` and `an-b`. -/
inductive Writes : Text → AnPlusB → Prop where
  | odd : Writes "odd".toList ⟨2, 1⟩
  | even : Writes "even".toList ⟨2, 0⟩
  | constant {t : Text} {b : Int} (h : WritesInteger t b) : Writes t ⟨0, b⟩
  | linear {step offset : Text} {a b : Int} (hStep : WritesStep step a)
      (hOffset : WritesOffset offset b) : Writes (step ++ 'n' :: offset) ⟨a, b⟩

variable {negative : Bool} {t digits : Text} {n : Int}

/-- Digits are read from the left, each time with one more place in front. -/
theorem digitsValue_eq (digits : Text) :
    digitsValue digits = Nat.ofDigits 10 (digits.reverse.map fun c => c.toNat - '0'.toNat) := by
  rw [digitsValue, List.foldl_eq_foldr_reverse, Nat.ofDigits_eq_foldr, List.foldr_map]
  simp only [Nat.cast_id, Nat.add_comm]

/-- Reading digits is exact: it succeeds on the digits of a number in range, however many zeros
stand in front. -/
theorem readDigits?_eq_some_iff : readDigits? negative digits = some n ↔
    ∃ k : Nat, WritesDigits digits k ∧ n = (if negative then -(k : Int) else k) ∧
      inRange n = true := by
  constructor
  · intro h
    have hRange := inRange_of_readDigits? h
    obtain ⟨hSome, hDigits⟩ := isAsciiDigit_of_readDigits? h
    rw [readDigits?, if_pos ⟨hSome, List.all_eq_true.mpr hDigits⟩] at h
    refine ⟨digitsValue digits, ⟨hSome, hDigits, digitsValue_eq digits⟩, ?_, hRange⟩
    dsimp only at h
    generalize (if negative then -(digitsValue digits : Int) else digitsValue digits) = value at h ⊢
    split at h
    · exact (Option.some.inj h).symm
    · cases h
  · rintro ⟨k, ⟨hSome, hDigits, hValue⟩, hNumber, hRange⟩
    rw [readDigits?, if_pos ⟨hSome, List.all_eq_true.mpr hDigits⟩, digitsValue_eq, ← hValue,
      ← hNumber]
    exact if_pos hRange

/-- A number that begins with a sign has its digits behind the sign. -/
theorem WritesInteger.of_sign {sign : Char} (hSign : isAsciiDigit sign = false)
    (h : WritesInteger (sign :: digits) n) : WritesSigned (sign :: digits) n := by
  cases h with
  | unsigned h =>
      have hDigit := h.isAsciiDigit sign List.mem_cons_self
      rw [hSign] at hDigit
      cases hDigit
  | signed h => exact h

/-- The numbers that are read are those of the grammar whose value is in range. -/
theorem readInteger?_eq_some_iff :
    readInteger? t = some n ↔ WritesInteger t n ∧ inRange n = true := by
  unfold readInteger?
  split
  · rw [readDigits?_eq_some_iff]
    constructor
    · rintro ⟨k, hDigits, rfl, hRange⟩
      exact ⟨.signed (.plus hDigits), hRange⟩
    · rintro ⟨h, hRange⟩
      cases h.of_sign rfl with
      | plus hDigits => exact ⟨_, hDigits, rfl, hRange⟩
  · rw [readDigits?_eq_some_iff]
    constructor
    · rintro ⟨k, hDigits, rfl, hRange⟩
      exact ⟨.signed (.minus hDigits), hRange⟩
    · rintro ⟨h, hRange⟩
      cases h.of_sign rfl with
      | minus hDigits => exact ⟨_, hDigits, rfl, hRange⟩
  · rename_i hPlus hMinus
    rw [readDigits?_eq_some_iff]
    constructor
    · rintro ⟨k, hDigits, rfl, hRange⟩
      exact ⟨.unsigned hDigits, hRange⟩
    · rintro ⟨h, hRange⟩
      cases h with
      | unsigned hDigits => exact ⟨_, hDigits, rfl, hRange⟩
      | signed h =>
          cases h with
          | plus => exact absurd rfl (hPlus _)
          | minus => exact absurd rfl (hMinus _)

/-- In front of the letter a sign alone stands for one or minus one, which is always in range. -/
theorem readStep?_eq_some_iff :
    readStep? t = some n ↔ WritesStep t n ∧ inRange n = true := by
  unfold readStep?
  split
  · constructor
    · rintro ⟨⟩
      exact ⟨.one, rfl⟩
    · rintro ⟨h, -⟩
      cases h with
      | one => rfl
      | number h =>
          cases h with
          | unsigned h => exact absurd rfl h.ne_nil
          | signed h => cases h
  · constructor
    · rintro ⟨⟩
      exact ⟨.plus, rfl⟩
    · rintro ⟨h, -⟩
      cases h with
      | plus => rfl
      | number h =>
          cases h.of_sign rfl with
          | plus hDigits => exact absurd rfl hDigits.ne_nil
  · constructor
    · rintro ⟨⟩
      exact ⟨.minus, rfl⟩
    · rintro ⟨h, -⟩
      cases h with
      | minus => rfl
      | number h =>
          cases h.of_sign rfl with
          | minus hDigits => exact absurd rfl hDigits.ne_nil
  · rename_i hNil hPlus hMinus
    rw [readInteger?_eq_some_iff]
    refine and_congr_left fun _ => ⟨.number, fun h => ?_⟩
    cases h with
    | one => exact absurd rfl hNil
    | plus => exact absurd rfl hPlus
    | minus => exact absurd rfl hMinus
    | number h => exact h

/-- Behind the letter a number without sign is no offset. -/
theorem readOffset?_eq_some_iff :
    readOffset? t = some n ↔ WritesOffset t n ∧ inRange n = true := by
  unfold readOffset?
  split
  · constructor
    · rintro ⟨⟩
      exact ⟨.zero, rfl⟩
    · rintro ⟨h, -⟩
      cases h with
      | zero => rfl
      | number h => cases h
  · rw [readInteger?_eq_some_iff]
    refine and_congr_left fun _ => ⟨fun h => .number (h.of_sign rfl), fun h => ?_⟩
    cases h with
    | number h => exact .signed h
  · rw [readInteger?_eq_some_iff]
    refine and_congr_left fun _ => ⟨fun h => .number (h.of_sign rfl), fun h => ?_⟩
    cases h with
    | number h => exact .signed h
  · rename_i hNil hPlus hMinus
    constructor
    · rintro ⟨⟩
    · rintro ⟨h, -⟩
      cases h with
      | zero => exact absurd rfl hNil
      | number h =>
          cases h with
          | plus => exact absurd rfl (hPlus _)
          | minus => exact absurd rfl (hMinus _)

/-- Numbers hold no letter `n`. The letter at which a text is split is therefore the only one. -/
theorem WritesSigned.isSignOrDigit (h : WritesSigned t n) :
    ∀ c ∈ t, isSignOrDigit c = true := by
  cases h with
  | plus h | minus h =>
      refine List.forall_mem_cons.mpr ⟨rfl, fun c hc => ?_⟩
      simp [AnPlusB.isSignOrDigit, h.isAsciiDigit c hc]

theorem WritesInteger.isSignOrDigit (h : WritesInteger t n) :
    ∀ c ∈ t, isSignOrDigit c = true := by
  cases h with
  | unsigned h => exact fun c hc => by simp [AnPlusB.isSignOrDigit, h.isAsciiDigit c hc]
  | signed h => exact h.isSignOrDigit

theorem WritesStep.isSignOrDigit (h : WritesStep t n) : ∀ c ∈ t, isSignOrDigit c = true := by
  cases h with
  | one | plus | minus => exact List.all_eq_true.mp (by decide)
  | number h => exact h.isSignOrDigit

theorem WritesOffset.isSignOrDigit (h : WritesOffset t n) :
    ∀ c ∈ t, isSignOrDigit c = true := by
  cases h with
  | zero => exact List.all_eq_true.mp (by decide)
  | number h => exact h.isSignOrDigit

/-- A number alone is a position, since it holds no letter to be split at. -/
theorem readCompact?_of_constant {b : Int} (h : WritesInteger t b) (hRange : inRange b = true) :
    readCompact? t = some ⟨0, b⟩ := by
  have hWord (word : Text) (hLetter : ∃ c ∈ word, isSignOrDigit c = false) : t ≠ word := by
    rintro rfl
    obtain ⟨c, hc, hOther⟩ := hLetter
    rw [h.isSignOrDigit c hc] at hOther
    cases hOther
  have hDrop : t.dropWhile (· ≠ 'n') = [] := by
    refine List.dropWhile_eq_nil_iff.mpr fun c hc => ?_
    have hChar := h.isSignOrDigit c hc
    rw [decide_eq_true_eq]
    rintro rfl
    cases hChar
  rw [readCompact?, if_neg (hWord _ ⟨'o', by decide⟩), if_neg (hWord _ ⟨'v', by decide⟩), hDrop]
  simp [readInteger?_eq_some_iff.mpr ⟨h, hRange⟩]

/-- The first letter is the one behind the step, since no step has a letter in it. -/
theorem readCompact?_of_linear {step offset : Text} {a b : Int} (hStep : WritesStep step a)
    (hOffset : WritesOffset offset b) (hRange : inRange a = true ∧ inRange b = true) :
    readCompact? (step ++ 'n' :: offset) = some ⟨a, b⟩ := by
  have hChars : ∀ c ∈ step ++ 'n' :: offset, isSignOrDigit c = true ∨ c = 'n' := by
    intro c hc
    rcases List.mem_append.mp hc with hc | hc
    · exact Or.inl (hStep.isSignOrDigit c hc)
    · exact (List.mem_cons.mp hc).symm.imp_left (hOffset.isSignOrDigit c)
  have hWord (word : Text) (hLetter : ∃ c ∈ word, isSignOrDigit c = false ∧ c ≠ 'n') :
      step ++ 'n' :: offset ≠ word := by
    rintro rfl
    obtain ⟨c, hc, hOther, hNe⟩ := hLetter
    rw [(hChars c hc).resolve_right hNe] at hOther
    cases hOther
  have hFirst : ∀ c ∈ step, decide (c ≠ 'n') = true := by
    intro c hc
    have hChar := hStep.isSignOrDigit c hc
    rw [decide_eq_true_eq]
    rintro rfl
    cases hChar
  have hTake : (step ++ 'n' :: offset).takeWhile (· ≠ 'n') = step := by
    rw [List.takeWhile_append_of_pos hFirst]
    simp
  have hDrop : (step ++ 'n' :: offset).dropWhile (· ≠ 'n') = 'n' :: offset := by
    rw [List.dropWhile_append_of_pos hFirst]
    simp
  rw [readCompact?, if_neg (hWord _ ⟨'o', by decide⟩), if_neg (hWord _ ⟨'v', by decide⟩), hDrop,
    hTake]
  simp [readStep?_eq_some_iff.mpr ⟨hStep, hRange.1⟩,
    readOffset?_eq_some_iff.mpr ⟨hOffset, hRange.2⟩]

/-- What is read was written, and both of its numbers are in range. -/
theorem writes_of_readCompact? {positions : AnPlusB} (h : readCompact? t = some positions) :
    Writes t positions ∧ inRange positions.a = true ∧ inRange positions.b = true := by
  unfold readCompact? at h
  split at h
  · rename_i hWord
    cases h
    exact ⟨hWord ▸ .odd, rfl, rfl⟩
  · split at h
    · rename_i hWord
      cases h
      exact ⟨hWord ▸ .even, rfl, rfl⟩
    · split at h
      · obtain ⟨b, hb, rfl⟩ := Option.map_eq_some_iff.mp h
        obtain ⟨hInteger, hRange⟩ := readInteger?_eq_some_iff.mp hb
        exact ⟨.constant hInteger, rfl, hRange⟩
      · rename_i letter offset hDrop
        obtain ⟨a, ha, hRest⟩ := Option.bind_eq_some_iff.mp h
        obtain ⟨b, hb, hBoth⟩ := Option.bind_eq_some_iff.mp hRest
        cases hBoth
        obtain ⟨hStep, hFirst⟩ := readStep?_eq_some_iff.mp ha
        obtain ⟨hOffset, hSecond⟩ := readOffset?_eq_some_iff.mp hb
        have hLetter : letter = 'n' := by
          have hStop := List.head?_dropWhile_not (· ≠ 'n') t
          rw [hDrop] at hStop
          simpa using hStop
        have hText : t = t.takeWhile (· ≠ 'n') ++ 'n' :: offset := by
          rw [hLetter] at hDrop
          rw [← hDrop, List.takeWhile_append_dropWhile]
        rw [hText]
        exact ⟨.linear hStep hOffset, hFirst, hSecond⟩

/-- The reading of compact texts against the grammar, in both directions. -/
theorem readCompact?_eq_some_iff {positions : AnPlusB} :
    readCompact? t = some positions ↔
      Writes t positions ∧ inRange positions.a = true ∧ inRange positions.b = true := by
  refine ⟨writes_of_readCompact?, ?_⟩
  rintro ⟨h, hRange⟩
  cases h with
  | odd | even => rfl
  | constant h => exact readCompact?_of_constant h hRange.2
  | linear hStep hOffset => exact readCompact?_of_linear hStep hOffset hRange

/-- The positions that a text is read as are those that it writes, space and case aside. A text that
writes none, or none whose numbers fit into 32 bits with sign, is not read. -/
theorem read?_eq_some_iff {positions : AnPlusB} :
    read? t = some positions ↔
      Writes ((t.filter fun c => !isSpace c).map Char.toLower) positions ∧
        (-2 ^ 31 ≤ positions.a ∧ positions.a < 2 ^ 31) ∧
        (-2 ^ 31 ≤ positions.b ∧ positions.b < 2 ^ 31) := by
  have hRange (k : Int) : inRange k = true ↔ -2 ^ 31 ≤ k ∧ k < 2 ^ 31 := by
    rw [inRange, Bool.and_eq_true, decide_eq_true_eq, decide_eq_true_eq]
    omega
  rw [read?, readCompact?_eq_some_iff, hRange, hRange]
  rfl

/-- The least number of 32 bits, with a space that is not blank, and zeros in front. -/
example : read? "-2147483648N\u00a0- 007".toList = some ⟨-2147483648, -7⟩ := by
  decide +kernel

end SelectorXPath.AnPlusB
