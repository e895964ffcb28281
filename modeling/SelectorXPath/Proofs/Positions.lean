import Mathlib.Data.Bool.AllAny
import SelectorXPath.AnPlusB

/-! Texts that write positions: the characters that they are made of, the bounds that the numbers
in them keep, a text for every pair of numbers within the bounds, and the positions that are
meant. -/

namespace SelectorXPath.AnPlusB

open SelectorXPath.Text

/-- The characters of a compact text that writes positions. -/
def isCompactChar (c : Char) : Bool :=
  isAsciiDigit c || c ∈ ['o', 'd', 'e', 'v', 'n', '+', '-']

/-- The characters that positions are written with, in either case and with space between. -/
def isPositionalChar (c : Char) : Bool :=
  isSpace c || isCompactChar c.toLower

theorem isCompactChar_of_readDigits? {negative : Bool} {digits : Text} {n : Int}
    (h : readDigits? negative digits = some n) : ∀ c ∈ digits, isCompactChar c = true := by
  unfold readDigits? at h
  split at h
  · rename_i hDigits
    intro c hc
    simp [isCompactChar, List.all_eq_true.mp hDigits.2 c hc]
  · cases h

theorem isCompactChar_of_readInteger? {t : Text} {n : Int} (h : readInteger? t = some n) :
    ∀ c ∈ t, isCompactChar c = true := by
  unfold readInteger? at h
  split at h
  · intro c hc
    rcases List.mem_cons.mp hc with rfl | hc
    · decide
    · exact isCompactChar_of_readDigits? h c hc
  · intro c hc
    rcases List.mem_cons.mp hc with rfl | hc
    · decide
    · exact isCompactChar_of_readDigits? h c hc
  · exact isCompactChar_of_readDigits? h

theorem isCompactChar_of_readStep? {t : Text} {n : Int} (h : readStep? t = some n) :
    ∀ c ∈ t, isCompactChar c = true := by
  unfold readStep? at h
  split at h
  · simp
  · simp; decide
  · simp; decide
  · exact isCompactChar_of_readInteger? h

theorem isCompactChar_of_readOffset? {t : Text} {n : Int} (h : readOffset? t = some n) :
    ∀ c ∈ t, isCompactChar c = true := by
  unfold readOffset? at h
  split at h
  · simp
  · exact isCompactChar_of_readInteger? h
  · exact isCompactChar_of_readInteger? h
  · cases h

/-- A text that positions are read from is made of digits, signs and the letters of `odd`, `even`
and `n`. -/
theorem isCompactChar_of_readCompact? {t : Text} {n : AnPlusB} (h : readCompact? t = some n) :
    ∀ c ∈ t, isCompactChar c = true := by
  unfold readCompact? at h
  split at h
  · rename_i hOdd
    subst hOdd
    exact List.all_eq_true.mp (by decide)
  · split at h
    · rename_i hEven
      subst hEven
      exact List.all_eq_true.mp (by decide)
    · split at h
      · obtain ⟨b, hb, -⟩ := Option.map_eq_some_iff.mp h
        exact isCompactChar_of_readInteger? hb
      · rename_i first offset hDrop
        obtain ⟨a, ha, hRest⟩ := Option.bind_eq_some_iff.mp h
        obtain ⟨b, hb, -⟩ := Option.bind_eq_some_iff.mp hRest
        intro c hc
        rw [← List.takeWhile_append_dropWhile (p := (· ≠ 'n')) (l := t), hDrop] at hc
        rcases List.mem_append.mp hc with hc | hc
        · exact isCompactChar_of_readStep? ha c hc
        · rcases List.mem_cons.mp hc with rfl | hc
          · have hFirst : c = 'n' := by
              have hStop := List.head?_dropWhile_not (· ≠ 'n') t
              rw [hDrop] at hStop
              simpa using hStop
            rw [hFirst]
            decide
          · exact isCompactChar_of_readOffset? hb c hc

/-- Positions are written with a few characters only. -/
theorem isPositionalChar_of_read? {t : Text} {n : AnPlusB} (h : read? t = some n) :
    ∀ c ∈ t, isPositionalChar c = true := by
  intro c hc
  by_cases hSpace : isSpace c = true
  · simp [isPositionalChar, hSpace]
  · have hMem : c.toLower ∈ compact t :=
      List.mem_map_of_mem (List.mem_filter.mpr ⟨hc, by simp [hSpace]⟩)
    simp [isPositionalChar, isCompactChar_of_readCompact? h _ hMem]

/-- Numbers that do not fit are refused where their digits are read. -/
theorem inRange_of_readDigits? {negative : Bool} {digits : Text} {n : Int}
    (h : readDigits? negative digits = some n) : inRange n = true := by
  unfold readDigits? at h
  split at h
  · dsimp only at h
    generalize (if negative then -(digitsValue digits : Int) else digitsValue digits) = value at h
    split at h
    · rename_i hRange
      obtain rfl := Option.some.inj h
      exact hRange
    · cases h
  · cases h

theorem inRange_of_readInteger? {t : Text} {n : Int} (h : readInteger? t = some n) :
    inRange n = true := by
  unfold readInteger? at h
  split at h <;> exact inRange_of_readDigits? h

theorem inRange_of_readStep? {t : Text} {n : Int} (h : readStep? t = some n) :
    inRange n = true := by
  unfold readStep? at h
  split at h
  case h_4 => exact inRange_of_readInteger? h
  -- a step without digits is one, with either sign
  all_goals
    cases h
    decide

theorem inRange_of_readOffset? {t : Text} {n : Int} (h : readOffset? t = some n) :
    inRange n = true := by
  unfold readOffset? at h
  split at h
  · cases h
    decide
  · exact inRange_of_readInteger? h
  · exact inRange_of_readInteger? h
  · cases h

/-- Both numbers that are read fit into 32 bits. -/
theorem inRange_of_read? {t : Text} {n : AnPlusB} (h : read? t = some n) :
    inRange n.a = true ∧ inRange n.b = true := by
  unfold read? readCompact? at h
  split at h
  · cases h
    decide
  · split at h
    · cases h
      decide
    · split at h
      · obtain ⟨b, hb, rfl⟩ := Option.map_eq_some_iff.mp h
        exact ⟨rfl, inRange_of_readInteger? hb⟩
      · obtain ⟨a, ha, hRest⟩ := Option.bind_eq_some_iff.mp h
        obtain ⟨b, hb, hBoth⟩ := Option.bind_eq_some_iff.mp hRest
        cases hBoth
        exact ⟨inRange_of_readStep? ha, inRange_of_readOffset? hb⟩

def decimal (n : Int) : Text :=
  if n < 0 then '-' :: Nat.toDigits 10 n.natAbs else Nat.toDigits 10 n.natAbs

def signedDecimal (n : Int) : Text :=
  (if n < 0 then '-' else '+') :: Nat.toDigits 10 n.natAbs

/-- The spelling of positions, with space around the letter. -/
def spelling (n : AnPlusB) : Text :=
  decimal n.a ++ ' ' :: 'n' :: ' ' :: signedDecimal n.b

theorem isAsciiDigit_of_mem_toDigits {n : Nat} {c : Char} (h : c ∈ Nat.toDigits 10 n) :
    isAsciiDigit c = true := by
  have hDigit := Nat.isDigit_of_mem_toDigits (by decide) (by decide) h
  simp only [Char.isDigit, Bool.and_eq_true, decide_eq_true_eq] at hDigit
  simp only [isAsciiDigit, Bool.and_eq_true, decide_eq_true_eq]
  exact hDigit

/-- The digits of a number are read as the number, if it is in range with its sign. -/
theorem readDigits?_toDigits {negative : Bool} {k : Nat} {n : Int}
    (hValue : n = if negative then -(k : Int) else k) (hRange : inRange n = true) :
    readDigits? negative (Nat.toDigits 10 k) = some n := by
  have hDigits : Nat.toDigits 10 k ≠ [] ∧ (Nat.toDigits 10 k).all isAsciiDigit = true :=
    ⟨Nat.toDigits_ne_nil, List.all_eq_true.mpr fun _ => isAsciiDigit_of_mem_toDigits⟩
  have hNumber : digitsValue (Nat.toDigits 10 k) = k := by
    rw [digitsValue, ← Nat.ofDigitChars_eq_foldl, Nat.ofDigitChars_ten_toDigits]
  rw [readDigits?, if_pos hDigits, hNumber, ← hValue]
  simp [hRange]

/-- The digits of a number are not empty, and there is nothing among them but digits. -/
theorem exists_digits (n : Nat) : ∃ c t, Nat.toDigits 10 n = c :: t ∧
    isAsciiDigit c = true ∧ ∀ d ∈ t, isAsciiDigit d = true := by
  obtain ⟨c, t, h⟩ := List.exists_cons_of_ne_nil (Nat.toDigits_ne_nil (n := n) (b := 10))
  have hDigits : ∀ d ∈ c :: t, isAsciiDigit d = true :=
    fun d hd => isAsciiDigit_of_mem_toDigits (h ▸ hd)
  exact ⟨c, t, h, List.forall_mem_cons.mp hDigits⟩

/-- A number in range is read back from its spelling. -/
theorem readInteger?_decimal {n : Int} (h : inRange n = true) :
    readInteger? (decimal n) = some n := by
  by_cases hSign : n < 0
  · rw [decimal, if_pos hSign]
    exact readDigits?_toDigits (by rw [if_pos rfl]; omega) h
  · rw [decimal, if_neg hSign]
    obtain ⟨c, t, hDigits, hFirst, -⟩ := exists_digits n.natAbs
    have hRead : readDigits? false (Nat.toDigits 10 n.natAbs) = some n :=
      readDigits?_toDigits (by rw [if_neg Bool.false_ne_true]; omega) h
    rw [hDigits] at hRead ⊢
    unfold readInteger?
    split
    · simp_all [isAsciiDigit]
    · simp_all [isAsciiDigit]
    · exact hRead

/-- An offset is spelled with a sign, and is read back. -/
theorem readOffset?_signedDecimal {n : Int} (h : inRange n = true) :
    readOffset? (signedDecimal n) = some n := by
  by_cases hSign : n < 0
  · rw [signedDecimal, if_pos hSign]
    exact readDigits?_toDigits (by rw [if_pos rfl]; omega) h
  · rw [signedDecimal, if_neg hSign]
    exact readDigits?_toDigits (by rw [if_neg Bool.false_ne_true]; omega) h

/-- Space is left out piece by piece, so that texts can be made compact before they are joined. -/
theorem compact_append (s t : Text) : compact (s ++ t) = compact s ++ compact t := by
  simp [compact, lower]

/-- Digits and signs are neither space nor letters. -/
def isPlain (c : Char) : Bool :=
  !isSpace c && c.toLower = c

def asciiDigits : Text :=
  ['0', '1', '2', '3', '4', '5', '6', '7', '8', '9']

/-- A property of digits can be checked for ten characters. -/
theorem mem_digits {c : Char} (h : isAsciiDigit c = true) :
    c ∈ asciiDigits := by
  have hBounds : '0' ≤ c ∧ c ≤ '9' := by simpa [isAsciiDigit] using h
  have hLow : 48 ≤ c.toNat := hBounds.1
  have hHigh : c.toNat ≤ 57 := hBounds.2
  have hEvery : ∀ n < 58, 48 ≤ n →
      Char.ofNat n ∈ asciiDigits := by decide
  have := hEvery c.toNat (Nat.lt_succ_of_le hHigh) hLow
  rwa [Char.ofNat_toNat] at this

theorem isPlain_of_isAsciiDigit {c : Char} (h : isAsciiDigit c = true) : isPlain c = true := by
  have hDigits : ∀ d ∈ asciiDigits, isPlain d = true := List.all_eq_true.mp (by decide)
  exact hDigits c (mem_digits h)

/-- Digits and signs are compact already. -/
theorem compact_of_isPlain {t : Text} (h : ∀ c ∈ t, isPlain c = true) : compact t = t := by
  have hPlain : ∀ c ∈ t, isSpace c = false ∧ c.toLower = c := by simpa [isPlain] using h
  have hFilter : t.filter (fun c => !isSpace c) = t :=
    List.filter_eq_self.mpr fun c hc => by simp [(hPlain c hc).1]
  rw [compact, hFilter, lower]
  exact (List.map_congr_left fun c hc => (hPlain c hc).2).trans (List.map_id t)

def isSignOrDigit (c : Char) : Bool :=
  c = '-' || c = '+' || isAsciiDigit c

/-- No letter stands in the spelling of a number. -/
theorem isSignOrDigit_of_mem_decimal {n : Int} {c : Char} (h : c ∈ decimal n) :
    isSignOrDigit c = true := by
  unfold decimal at h
  split at h
  · rcases List.mem_cons.mp h with rfl | h
    · rfl
    · simp [isSignOrDigit, isAsciiDigit_of_mem_toDigits h]
  · simp [isSignOrDigit, isAsciiDigit_of_mem_toDigits h]

theorem isSignOrDigit_of_mem_signedDecimal {n : Int} {c : Char} (h : c ∈ signedDecimal n) :
    isSignOrDigit c = true := by
  rcases List.mem_cons.mp h with rfl | h
  · split <;> rfl
  · simp [isSignOrDigit, isAsciiDigit_of_mem_toDigits h]

theorem isPlain_of_isSignOrDigit {c : Char} (h : isSignOrDigit c = true) : isPlain c = true := by
  simp only [isSignOrDigit, Bool.or_eq_true, decide_eq_true_eq] at h
  rcases h with (rfl | rfl) | h
  · decide
  · decide
  · exact isPlain_of_isAsciiDigit h

/-- Of the spelling of positions nothing is left out but the space around the letter. -/
theorem compact_spelling (n : AnPlusB) :
    compact n.spelling = decimal n.a ++ 'n' :: signedDecimal n.b := by
  have hLetter : compact " n ".toList = ['n'] := by decide
  have hSpelling : n.spelling = decimal n.a ++ (" n ".toList ++ signedDecimal n.b) := rfl
  have hStep : compact (decimal n.a) = decimal n.a :=
    compact_of_isPlain fun c hc => isPlain_of_isSignOrDigit (isSignOrDigit_of_mem_decimal hc)
  have hOffset : compact (signedDecimal n.b) = signedDecimal n.b :=
    compact_of_isPlain fun c hc =>
      isPlain_of_isSignOrDigit (isSignOrDigit_of_mem_signedDecimal hc)
  rw [hSpelling, compact_append, compact_append, hLetter, hStep, hOffset]
  rfl

/-- A step is read back, even where it is one and is spelled out. -/
theorem readStep?_decimal {n : Int} (h : inRange n = true) : readStep? (decimal n) = some n := by
  have hRead := readInteger?_decimal h
  unfold readStep?
  split
  case h_4 => exact hRead
  all_goals
    rename_i hText
    rw [hText] at hRead
    cases hRead

/-- Every pair of numbers within the bounds is read from its spelling. -/
theorem read?_spelling {n : AnPlusB} (ha : inRange n.a = true) (hb : inRange n.b = true) :
    read? n.spelling = some n := by
  have hFirst : ∀ c ∈ decimal n.a, c ≠ 'n' := by
    rintro c hc rfl
    cases isSignOrDigit_of_mem_decimal hc
  have hTake : (decimal n.a ++ 'n' :: signedDecimal n.b).takeWhile (· ≠ 'n') = decimal n.a := by
    rw [List.takeWhile_append_of_pos (by simpa using hFirst)]
    simp
  have hDrop : (decimal n.a ++ 'n' :: signedDecimal n.b).dropWhile (· ≠ 'n') =
      'n' :: signedDecimal n.b := by
    rw [List.dropWhile_append_of_pos (by simpa using hFirst)]
    simp
  have hWord : ∀ word : Text, 'd' ∈ word ∨ 'e' ∈ word →
      decimal n.a ++ 'n' :: signedDecimal n.b ≠ word := by
    rintro word hLetter rfl
    have hChars : ∀ c ∈ decimal n.a ++ 'n' :: signedDecimal n.b,
        isSignOrDigit c = true ∨ c = 'n' := by
      intro c hc
      rcases List.mem_append.mp hc with hc | hc
      · exact Or.inl (isSignOrDigit_of_mem_decimal hc)
      · rcases List.mem_cons.mp hc with rfl | hc
        · exact Or.inr rfl
        · exact Or.inl (isSignOrDigit_of_mem_signedDecimal hc)
    rcases hLetter with h | h
    · exact absurd (hChars 'd' h) (by decide)
    · exact absurd (hChars 'e' h) (by decide)
  rw [read?, compact_spelling, readCompact?, if_neg (hWord _ (by decide)),
    if_neg (hWord _ (by decide)), hDrop, hTake]
  simp [readStep?_decimal ha, readOffset?_signedDecimal hb]

theorem isAsciiDigit_of_readDigits? {negative : Bool} {digits : Text} {n : Int}
    (h : readDigits? negative digits = some n) :
    digits ≠ [] ∧ ∀ c ∈ digits, isAsciiDigit c = true := by
  unfold readDigits? at h
  split at h
  · rename_i hDigits
    exact ⟨hDigits.1, List.all_eq_true.mp hDigits.2⟩
  · cases h

/-- Only the first character of a number can be a sign. -/
theorem isAsciiDigit_of_readInteger? {c : Char} {t : Text} {n : Int}
    (h : readInteger? (c :: t) = some n) : ∀ d ∈ t, isAsciiDigit d = true := by
  unfold readInteger? at h
  split at h
  · rename_i hText
    obtain ⟨-, rfl⟩ := List.cons.inj hText
    exact (isAsciiDigit_of_readDigits? h).2
  · rename_i hText
    obtain ⟨-, rfl⟩ := List.cons.inj hText
    exact (isAsciiDigit_of_readDigits? h).2
  · exact fun d hd => (isAsciiDigit_of_readDigits? h).2 d (List.mem_cons_of_mem _ hd)

/-- A minus sign in a number stands in front of it, with a digit behind. -/
theorem minus_of_readInteger? {front back : Text} {n : Int}
    (h : readInteger? (front ++ '-' :: back) = some n) :
    front = [] ∧ ∃ c t, back = c :: t ∧ isAsciiDigit c = true := by
  cases front with
  | nil =>
      have hRead : readDigits? true back = some n := h
      obtain ⟨hSome, hDigits⟩ := isAsciiDigit_of_readDigits? hRead
      obtain ⟨c, t, rfl⟩ := List.exists_cons_of_ne_nil hSome
      exact ⟨rfl, c, t, rfl, hDigits c List.mem_cons_self⟩
  | cons c front =>
      have hMinus := isAsciiDigit_of_readInteger? h '-' (by simp)
      cases hMinus

/-- In front of the letter the sign may stand alone. -/
theorem minus_of_readStep? {front back : Text} {n : Int}
    (h : readStep? (front ++ '-' :: back) = some n) :
    front = [] ∧ (back = [] ∨ ∃ c t, back = c :: t ∧ isAsciiDigit c = true) := by
  unfold readStep? at h
  split at h
  · rename_i hText
    exact absurd hText (by simp)
  · rename_i hText
    rcases List.append_eq_singleton_iff.mp hText with ⟨-, hBack⟩ | ⟨-, hBack⟩ <;> cases hBack
  · rename_i hText
    rcases List.append_eq_singleton_iff.mp hText with ⟨hFront, hBack⟩ | ⟨-, hBack⟩
    · exact ⟨hFront, Or.inl (List.cons.inj hBack).2⟩
    · cases hBack
  · exact (minus_of_readInteger? h).imp_right Or.inr

/-- A minus sign in an offset stands in front of it, with a digit behind. -/
theorem minus_of_readOffset? {front back : Text} {n : Int}
    (h : readOffset? (front ++ '-' :: back) = some n) :
    front = [] ∧ ∃ c t, back = c :: t ∧ isAsciiDigit c = true := by
  unfold readOffset? at h
  split at h
  · rename_i hText
    exact absurd hText (by simp)
  · rename_i hText
    exact minus_of_readInteger? (hText ▸ h)
  · rename_i hText
    exact minus_of_readInteger? (hText ▸ h)
  · cases h

/-- A minus sign stands in front of a digit or of the letter, and behind the letter or at the
start. -/
theorem minus_of_readCompact? {front back : Text} {n : AnPlusB}
    (h : readCompact? (front ++ '-' :: back) = some n) :
    (∀ d ∈ front.getLast?, d = 'n') ∧ ∃ c t, back = c :: t ∧ (isAsciiDigit c = true ∨ c = 'n') := by
  have hWord (word : Text) (hWord : '-' ∉ word) : front ++ '-' :: back ≠ word := by
    rintro rfl
    exact hWord (by simp)
  rw [readCompact?, if_neg (hWord _ (by decide)), if_neg (hWord _ (by decide))] at h
  split at h
  · obtain ⟨b, hb, -⟩ := Option.map_eq_some_iff.mp h
    obtain ⟨rfl, c, t, hBack, hDigit⟩ := minus_of_readInteger? hb
    exact ⟨by simp, c, t, hBack, Or.inl hDigit⟩
  · rename_i letter offset hDrop
    obtain ⟨a, ha, hRest⟩ := Option.bind_eq_some_iff.mp h
    obtain ⟨b, hb, -⟩ := Option.bind_eq_some_iff.mp hRest
    obtain rfl : letter = 'n' := by
      have hStop := List.head?_dropWhile_not (· ≠ 'n') (front ++ '-' :: back)
      rw [hDrop] at hStop
      simpa using hStop
    have hSplit := List.takeWhile_append_dropWhile (p := (· ≠ 'n')) (l := front ++ '-' :: back)
    rw [hDrop] at hSplit
    generalize (front ++ '-' :: back).takeWhile (· ≠ 'n') = step at ha hSplit
    -- The sign belongs to the offset behind the letter, or to the step in front of it.
    obtain ⟨more, rfl, hBehind⟩ | ⟨more, rfl, hBehind⟩ := List.append_eq_append_iff.mp hSplit
    · cases more with
      | nil => cases hBehind
      | cons d more =>
          obtain ⟨rfl, rfl⟩ := List.cons.inj hBehind
          obtain ⟨rfl, c, t, hBack, hDigit⟩ := minus_of_readOffset? hb
          exact ⟨by simp, c, t, hBack, Or.inl hDigit⟩
    · cases more with
      | nil => cases hBehind
      | cons d more =>
          obtain ⟨rfl, rfl⟩ := List.cons.inj hBehind
          obtain ⟨rfl, rfl | ⟨c, t, rfl, hDigit⟩⟩ := minus_of_readStep? ha
          · exact ⟨by simp, 'n', offset, rfl, Or.inr rfl⟩
          · exact ⟨by simp, c, t ++ 'n' :: offset, rfl, Or.inl hDigit⟩

theorem compact_cons (c : Char) (t : Text) :
    compact (c :: t) = if isSpace c then compact t else c.toLower :: compact t := by
  cases hSpace : isSpace c <;> simp [compact, lower, hSpace]

/-- In a text with space, what stands beside a minus sign may be space as well. -/
theorem minus_of_read? {front back : Text} {n : AnPlusB}
    (h : read? (front ++ '-' :: back) = some n) :
    (∀ d ∈ front.getLast?, isSpace d = true ∨ d.toLower = 'n') ∧
      ∃ c t, back = c :: t ∧
        (isSpace c = true ∨ isAsciiDigit c.toLower = true ∨ c.toLower = 'n') := by
  have hMinus : compact ('-' :: back) = '-' :: compact back := compact_cons '-' back
  rw [read?, compact_append, hMinus] at h
  obtain ⟨hLast, c, t, hBack, hFirst⟩ := minus_of_readCompact? h
  constructor
  · intro d hd
    obtain ⟨front, rfl⟩ := List.getLast?_eq_some_iff.mp hd
    cases hSpace : isSpace d with
    | true => exact Or.inl rfl
    | false =>
        have hCompact : compact (front ++ [d]) = compact front ++ [d.toLower] := by
          rw [compact_append, compact_cons, hSpace]
          rfl
        exact Or.inr (hLast _ (by simp [hCompact]))
  · cases back with
    | nil => cases hBack
    | cons d back =>
        refine ⟨d, back, rfl, ?_⟩
        rw [compact_cons] at hBack
        split at hBack
        · rename_i hSpace
          exact Or.inl hSpace
        · obtain ⟨rfl, -⟩ := List.cons.inj hBack
          exact Or.inr hFirst

/-- The positions that are selected are `a * k + b` for some `k` that is not negative. -/
theorem selects_iff_exists {n : AnPlusB} {q : Int} :
    n.selects q = true ↔ ∃ k : Nat, q = n.a * k + n.b := by
  rw [selects]
  split
  · rename_i hStep
    simp only [hStep, decide_eq_true_eq, Int.zero_mul, exists_const]
    omega
  · rename_i hStep
    rw [Bool.and_eq_true, decide_eq_true_eq, decide_eq_true_eq, ← Int.dvd_iff_tmod_eq_zero]
    constructor
    · rintro ⟨⟨k, hDistance⟩, hQuotient⟩
      rw [hDistance, Int.mul_tdiv_cancel_left k hStep] at hQuotient
      refine ⟨k.toNat, ?_⟩
      rw [Int.toNat_of_nonneg hQuotient]
      omega
    · rintro ⟨k, rfl⟩
      rw [Int.add_sub_cancel, Int.mul_tdiv_cancel_left _ hStep]
      exact ⟨Int.dvd_mul_right .., Int.natCast_nonneg k⟩

/-- With a positive step, these are the multiples of it from `b` on. -/
theorem selects_iff_of_pos {n : AnPlusB} {q : Int} (h : 0 < n.a) :
    n.selects q = true ↔ n.b ≤ q ∧ n.a ∣ q - n.b := by
  rw [selects_iff_exists]
  constructor
  · rintro ⟨k, rfl⟩
    rw [Int.add_sub_cancel]
    have hNonneg : 0 ≤ n.a * k := Int.mul_nonneg (Int.le_of_lt h) (Int.natCast_nonneg k)
    exact ⟨by omega, Int.dvd_mul_right ..⟩
  · rintro ⟨hBound, k, hDistance⟩
    have hNonneg : 0 ≤ k := by
      refine Int.nonneg_of_mul_nonneg_right ?_ h
      omega
    refine ⟨k.toNat, ?_⟩
    rw [Int.toNat_of_nonneg hNonneg]
    omega

/-- With a negative step, these are the multiples of it down from `b`. -/
theorem selects_iff_of_neg {n : AnPlusB} {q : Int} (h : n.a < 0) :
    n.selects q = true ↔ q ≤ n.b ∧ -n.a ∣ n.b - q := by
  have hTurned : n.selects q = true ↔ AnPlusB.selects ⟨-n.a, -n.b⟩ (-q) = true := by
    simp only [selects_iff_exists, Int.neg_mul]
    refine exists_congr fun k => ?_
    omega
  rw [hTurned, selects_iff_of_pos (by simpa using h), Int.neg_le_neg_iff]
  have hDistance : -q - -n.b = n.b - q := by omega
  rw [hDistance]

end SelectorXPath.AnPlusB
