import Mathlib.Data.List.Basic
import SelectorXPath.Compile

/-! Bare names against the names of XML. The characters of a name in XML are given by ranges of
codes, those of a bare name by what Unicode calls letters and numbers. Beyond ASCII the two agree
but for a few letters and numbers that XML knows nothing of. -/

namespace SelectorXPath

namespace Text

/-- Every code from `low` to `high` lies in one of the ranges, which are gone through in ascending
order. -/
def covers : List (Nat × Nat) → Nat → Nat → Bool
  | [], low, high => high < low
  | range :: ranges, low, high =>
    if range.1 ≤ low ∧ low ≤ range.2 then covers ranges (range.2 + 1) high
    else covers ranges low high

/-- No code lies in two of the ranges. -/
def areDisjoint (ranges ranges' : List (Nat × Nat)) : Bool :=
  ranges.all fun r => ranges'.all fun r' => r.2 < r'.1 || r'.2 < r.1

variable {ranges ranges' : List (Nat × Nat)} {low high code : Nat}

/-- A code lies in one of the ranges. -/
theorem inRanges_iff : inRanges ranges code = true ↔ ∃ r ∈ ranges, r.1 ≤ code ∧ code ≤ r.2 := by
  simp [inRanges]

theorem inRanges_append : inRanges (ranges ++ ranges') code =
    (inRanges ranges code || inRanges ranges' code) :=
  List.any_append

/-- Where ranges cover an interval, every code in it lies in one of them. -/
theorem inRanges_of_covers (h : covers ranges low high = true) (hLow : low ≤ code)
    (hHigh : code ≤ high) : inRanges ranges code = true := by
  rw [inRanges_iff]
  induction ranges generalizing low with
  | nil =>
      rw [covers, decide_eq_true_eq] at h
      omega
  | cons range ranges ih =>
      rw [covers] at h
      split at h
      · rename_i hRange
        by_cases hInside : code ≤ range.2
        · exact ⟨range, List.mem_cons_self, by omega, hInside⟩
        · obtain ⟨r, hr, hCode⟩ := ih h (by omega)
          exact ⟨r, List.mem_cons_of_mem _ hr, hCode⟩
      · obtain ⟨r, hr, hCode⟩ := ih h hLow
        exact ⟨r, List.mem_cons_of_mem _ hr, hCode⟩

/-- Ranges that are covered one by one are covered together. -/
theorem inRanges_of_all_covers (h : ranges.all (fun r => covers ranges' r.1 r.2) = true)
    (hCode : inRanges ranges code = true) : inRanges ranges' code = true := by
  obtain ⟨r, hr, hLow, hHigh⟩ := inRanges_iff.mp hCode
  exact inRanges_of_covers (List.all_eq_true.mp h r hr) hLow hHigh

/-- Where they are disjoint from others, no code lies in both. -/
theorem not_inRanges_of_areDisjoint (h : areDisjoint ranges ranges' = true)
    (hCode : inRanges ranges code = true) : inRanges ranges' code = false := by
  obtain ⟨r, hr, hLow, hHigh⟩ := inRanges_iff.mp hCode
  refine Bool.eq_false_iff.mpr fun hOther => ?_
  obtain ⟨r', hr', hLow', hHigh'⟩ := inRanges_iff.mp hOther
  have hApart := List.all_eq_true.mp (List.all_eq_true.mp h r hr) r' hr'
  rw [Bool.or_eq_true, decide_eq_true_eq, decide_eq_true_eq] at hApart
  omega

/-- A code that lies in one of two groups of ranges lies in the first exactly if not in the second,
as long as the groups have nothing in common. -/
theorem inRanges_eq_not (h : areDisjoint ranges ranges' = true)
    (hCode : inRanges (ranges' ++ ranges) code = true) :
    inRanges ranges code = !inRanges ranges' code := by
  rw [inRanges_append] at hCode
  cases hFirst : inRanges ranges code with
  | true => rw [not_inRanges_of_areDisjoint h hFirst]; rfl
  | false =>
      rw [hFirst, Bool.or_false] at hCode
      rw [hCode]
      rfl

end Text

namespace XPath

open SelectorXPath.Text SelectorXPath.Translate

/-- The characters that a name begins with in XML 1.0, the colon apart. -/
def nameStartRanges : List (Nat × Nat) :=
  [(0x41, 0x5a), (0x5f, 0x5f), (0x61, 0x7a), (0xc0, 0xd6), (0xd8, 0xf6), (0xf8, 0x2ff),
    (0x370, 0x37d), (0x37f, 0x1fff), (0x200c, 0x200d), (0x2070, 0x218f), (0x2c00, 0x2fef),
    (0x3001, 0xd7ff), (0xf900, 0xfdcf), (0xfdf0, 0xfffd), (0x10000, 0xeffff)]

/-- The characters that a name has in XML, the colon apart: dash, dot, digits, the middle dot, marks
that combine and two that tie, and those that it begins with. -/
def nameRanges : List (Nat × Nat) :=
  [(0x2d, 0x2e), (0x30, 0x39), (0xb7, 0xb7), (0x300, 0x36f), (0x203f, 0x2040)] ++ nameStartRanges

/-- Names without colon, as XML has them. -/
def isNCName : Text → Bool
  | [] => false
  | c :: t => inRanges nameStartRanges c.toNat && t.all fun d => inRanges nameRanges d.toNat

/-- Letters that no name of XML begins with: two ordinal indicators, the micro sign, marks that
combine, and letters in circles. -/
def foreignStartRanges : List (Nat × Nat) :=
  [(0xaa, 0xaa), (0xb5, 0xb5), (0xba, 0xba), (0x345, 0x345), (0x363, 0x36f), (0x24b6, 0x24e9)]

/-- Letters and numbers that no name of XML has: besides the indicators and the micro sign, raised
digits, fractions, and letters and numbers in circles and parentheses. -/
def foreignRanges : List (Nat × Nat) :=
  [(0xaa, 0xaa), (0xb2, 0xb3), (0xb5, 0xb5), (0xb9, 0xba), (0xbc, 0xbe), (0x2460, 0x249b),
    (0x24b6, 0x24ff), (0x2776, 0x2793)]

/-- Whether one of the characters of a name is foreign to XML in its place. -/
def isForeign : Text → Bool
  | [] => false
  | c :: t => inRanges foreignStartRanges c.toNat || t.any fun d => inRanges foreignRanges d.toNat

/-- The ASCII letters belong to any ranges that hold these two. -/
theorem inRanges_of_isAsciiLetter {ranges : List (Nat × Nat)} {c : Char}
    (hUpper : (0x41, 0x5a) ∈ ranges) (hLower : (0x61, 0x7a) ∈ ranges)
    (h : isAsciiLetter c = true) : inRanges ranges c.toNat = true := by
  simp only [isAsciiLetter, Bool.or_eq_true, Bool.and_eq_true, decide_eq_true_eq] at h
  rcases h with ⟨hLow, hHigh⟩ | ⟨hLow, hHigh⟩
  · exact inRanges_iff.mpr ⟨_, hLower, hLow, hHigh⟩
  · exact inRanges_iff.mpr ⟨_, hUpper, hLow, hHigh⟩

/-- What begins a bare name begins a name of XML or is foreign to it. -/
theorem inRanges_of_isBareStart {c : Char} (h : isBareStart c = true) :
    inRanges (foreignStartRanges ++ nameStartRanges) c.toNat = true := by
  have hLetters : alphabeticRanges.all
      (fun r => covers (foreignStartRanges ++ nameStartRanges) r.1 r.2) = true := by
    decide +kernel
  simp only [isBareStart, isLetter, Bool.or_eq_true, Bool.and_eq_true, decide_eq_true_eq] at h
  rcases h with (hAscii | ⟨-, hLetter⟩) | rfl
  · exact inRanges_of_isAsciiLetter (by decide) (by decide) hAscii
  · exact inRanges_of_all_covers hLetters hLetter
  · decide

/-- What continues a bare name continues a name of XML or is foreign to it. -/
theorem inRanges_of_isBareChar {c : Char} (h : isBareChar c = true) :
    inRanges (foreignRanges ++ nameRanges) c.toNat = true := by
  have hLetters : alphabeticRanges.all
      (fun r => covers (foreignRanges ++ nameRanges) r.1 r.2) = true := by
    decide +kernel
  have hNumbers : numericRanges.all
      (fun r => covers (foreignRanges ++ nameRanges) r.1 r.2) = true := by
    decide +kernel
  have hLetter (h : isLetter c = true) :
      inRanges (foreignRanges ++ nameRanges) c.toNat = true := by
    simp only [isLetter, Bool.or_eq_true, Bool.and_eq_true] at h
    rcases h with hAscii | ⟨-, hBeyond⟩
    · exact inRanges_of_isAsciiLetter (by decide) (by decide) hAscii
    · exact inRanges_of_all_covers hLetters hBeyond
  simp only [isBareChar, isBareStart, isLetterOrNumber, isAsciiDigit, Bool.or_eq_true,
    Bool.and_eq_true, decide_eq_true_eq] at h
  rcases h with (((h | rfl) | ((h | ⟨hLow, hHigh⟩) | ⟨-, hNumber⟩)) | rfl) | rfl
  · exact hLetter h
  · decide
  · exact hLetter h
  · exact inRanges_iff.mpr ⟨(0x30, 0x39), by decide, hLow, hHigh⟩
  · exact inRanges_of_all_covers hNumbers hNumber
  · decide
  · decide

/-- A bare name is a name of XML exactly if no character of it is foreign to XML in its place. -/
theorem isNCName_eq_not_isForeign {name : Text} (h : isBareName name = true) :
    isNCName name = !isForeign name := by
  cases name with
  | nil => cases h
  | cons c t =>
      rw [isBareName, Bool.and_eq_true, List.all_eq_true] at h
      have hFirst : inRanges nameStartRanges c.toNat = !inRanges foreignStartRanges c.toNat :=
        inRanges_eq_not (by decide) (inRanges_of_isBareStart h.1)
      have hMore : t.all (fun d => inRanges nameRanges d.toNat) =
          !t.any fun d => inRanges foreignRanges d.toNat := by
        rw [List.not_any_eq_all_not, Bool.eq_iff_iff, List.all_eq_true, List.all_eq_true]
        refine forall₂_congr fun d hd => ?_
        rw [inRanges_eq_not (by decide) (inRanges_of_isBareChar (h.2 d hd))]
      rw [isNCName, isForeign, hFirst, hMore, Bool.not_or]

/-- An attribute is addressed by a bare name exactly where the name is bare and has no namespace. -/
theorem attributePath_eq_attributeNamed_iff {r : Resolver} {name written : Text}
    {qualifier : Qualifier} : attributePath r name qualifier = .ok (.attributeNamed written) ↔
      (qualifier = .absent ∨ qualifier = .noNamespace) ∧ isBareName name = true ∧
        written = name := by
  have hPlain : plainAttribute name = .attributeNamed written ↔
      isBareName name = true ∧ written = name := by
    rw [plainAttribute]
    split
    · rename_i hBare
      simp [hBare, LocationPath.attributeNamed, eq_comm]
    · rename_i hBare
      simp [hBare, LocationPath.attributeNamed, LocationPath.attributesWith]
  cases qualifier with
  | absent | noNamespace => simp [attributePath, hPlain]
  | any => simp [attributePath, LocationPath.attributeNamed, LocationPath.attributesWith]
  | named key =>
      rw [attributePath]
      cases r.namespaceOf key <;>
        simp [LocationPath.attributeNamed, LocationPath.attributesWith]

/-- A bare name, which is what an attribute without namespace is addressed by, is a name of XML
unless one of its characters is foreign to XML in its place. -/
theorem isNCName_iff_of_isBareName {name : Text} (h : isBareName name = true) :
    (isNCName name = true ↔ isForeign name = false) ∧
      ∀ r qualifier written, attributePath r name qualifier = .ok (.attributeNamed written) ↔
        (qualifier = .absent ∨ qualifier = .noNamespace) ∧ written = name := by
  constructor
  · rw [isNCName_eq_not_isForeign h, Bool.not_eq_true']
  · intro r qualifier written
    rw [attributePath_eq_attributeNamed_iff]
    simp [h]

/-- Letters beyond ASCII are names of XML as a rule. -/
theorem isNCName_of_umlaut :
    isBareName "größe".toList = true ∧ isNCName "größe".toList = true := by
  have hBare : isBareName "größe".toList = true := by decide +kernel
  exact ⟨hBare, (isNCName_iff_of_isBareName hBare).1.mpr (by decide +kernel)⟩

/-- The feminine ordinal indicator is a letter, and it begins no name of XML. An attribute of that
name is addressed by it all the same. -/
theorem not_isNCName_of_ordinalIndicator :
    isBareName ['ª'] = true ∧ isNCName ['ª'] = false ∧
      compile "[ª]".toList Registry.empty.toResolver {} = .ok "descendant::*[@ª]".toList := by
  decide +kernel

end XPath

end SelectorXPath
