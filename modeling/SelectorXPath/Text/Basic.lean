/-!
# Text

Text is the list of its characters. Positions in it are byte offsets in UTF-8, because that is the
unit in which a caller finds a fault again in the selector it passed in. An offset is never stored
beside the text it points into: it is the sum of the sizes of the characters in front, so it always
lies between two characters.

Then the pieces that selectors and XPath expressions are written with: blanks, quotation marks,
escapes, names and numbers. A piece is recognised by its length, in characters, at the start of a
text; zero means that none starts there. `escapeLength` says how far an escape reaches, and
everything that steps over escapes asks it: the recognition of names and their decoding cannot
disagree about where an escape ends.
-/

namespace SelectorXPath

abbrev Text := List Char

namespace Text

/-- Number of bytes `t` takes in UTF-8. -/
def byteLength : Text → Nat
  | [] => 0
  | c :: t => c.utf8Size + byteLength t

/-- Offsets of texts that follow each other add up. -/
theorem byteLength_append (s t : Text) : byteLength (s ++ t) = byteLength s + byteLength t := by
  induction s with
  | nil => simp [byteLength]
  | cons c s ih => simp [byteLength, ih, Nat.add_assoc]

/-- What `t` holds from a byte offset on. There is no such text past the end of `t`, and none at an
offset that falls inside a character. -/
def fromByte? : Text → Nat → Option Text
  | t, 0 => some t
  | [], _ + 1 => none
  | c :: t, n + 1 => if n + 1 < c.utf8Size then none else fromByte? t (n + 1 - c.utf8Size)

/-- An offset between two characters is the size of the characters in front. -/
theorem fromByte?_append (front rest : Text) :
    fromByte? (front ++ rest) (byteLength front) = some rest := by
  induction front with
  | nil => cases rest <;> rfl
  | cons c front ih =>
    obtain ⟨k, hSize⟩ := Nat.exists_eq_add_one.mpr c.utf8Size_pos
    have hLength : byteLength (c :: front) = k + byteLength front + 1 := by
      rw [byteLength, hSize, Nat.add_right_comm]
    have hRest : k + byteLength front + 1 - c.utf8Size = byteLength front := by omega
    rw [List.cons_append, hLength, fromByte?, if_neg (by omega), hRest, ih]

/-- An offset at which a text goes on has whole characters in front of it. -/
theorem exists_front_of_fromByte? {t rest : Text} {n : Nat} (h : fromByte? t n = some rest) :
    ∃ front, t = front ++ rest ∧ byteLength front = n := by
  fun_induction fromByte? t n with
  | case1 t =>
    cases h
    exact ⟨[], rfl, rfl⟩
  | case2 => cases h
  | case3 c t n hInside => cases h
  | case4 c t n hBehind ih =>
    obtain ⟨front, rfl, hFront⟩ := ih h
    exact ⟨c :: front, rfl, by rw [byteLength, hFront]; omega⟩

/-- Offsets that `fromByte?` accepts are exactly those that split the text in two. -/
theorem fromByte?_eq_some_iff {t rest : Text} {n : Nat} :
    fromByte? t n = some rest ↔ ∃ front, t = front ++ rest ∧ byteLength front = n := by
  constructor
  · exact exists_front_of_fromByte?
  · rintro ⟨front, rfl, rfl⟩
    exact fromByte?_append front rest

/-- ASCII letters in lower case; every other character stays as it is. -/
def lower (t : Text) : Text :=
  t.map Char.toLower

/-! ### Blank characters

`isBlank` holds the five that separate the parts of a selector. `isSpace` is the Unicode property
`White_Space`, by which an `an+b` expression is cleared of space and by which a value of `~=` is
recognised as more than one word. -/

/-- Space, tab, line feed, carriage return and form feed. -/
def isBlank (c : Char) : Bool :=
  c = ' ' || c = '\t' || c = '\n' || c = '\r' || c = '\x0c'

/-- The characters with the Unicode property `White_Space`. -/
def isSpace (c : Char) : Bool :=
  isBlank c || c = '\x0b' || c = '\u0085' || c = '\u00a0' || c = '\u1680' ||
    ('\u2000' ≤ c && c ≤ '\u200a') || c = '\u2028' || c = '\u2029' || c = '\u202f' ||
    c = '\u205f' || c = '\u3000'

/-- What separates the parts of a selector is white space for Unicode too. -/
theorem isSpace_of_isBlank {c : Char} (h : isBlank c = true) : isSpace c = true := by
  simp [isSpace, h]

def blankLength (t : Text) : Nat :=
  (t.takeWhile isBlank).length

/-! ### Escapes

A backslash in a name makes the next character an ordinary one, or, before hexadecimal digits,
names a character by its code. -/

def hexValue? (c : Char) : Option Nat :=
  if '0' ≤ c ∧ c ≤ '9' then some (c.toNat - '0'.toNat)
  else if 'a' ≤ c ∧ c ≤ 'f' then some (c.toNat - 'a'.toNat + 10)
  else if 'A' ≤ c ∧ c ≤ 'F' then some (c.toNat - 'A'.toNat + 10)
  else none

/-- The hexadecimal digits at the start of a text, at most six of them. -/
def hexDigits (t : Text) : List Nat :=
  ((t.take 6).takeWhile (fun c => (hexValue? c).isSome)).filterMap hexValue?

/-- The characters that cannot be escaped, because they end a line. -/
def isLineEnd (c : Char) : Bool :=
  c = '\n' || c = '\r' || c = '\x0c'

/-- Number of characters of the one blank that may end a numeric escape. A carriage return and a
line feed behind it count as one blank. -/
def escapeEnd : Text → Nat
  | '\r' :: '\n' :: _ => 2
  | c :: _ => if isBlank c then 1 else 0
  | [] => 0

/-- Number of characters of the escape at the start of a text, zero if there is none: the backslash
with one to six hexadecimal digits and the blank that ends them, or with any one character that
does not end a line. -/
def escapeLength : Text → Nat
  | '\\' :: c :: t =>
    match (hexDigits (c :: t)).length with
    | 0 => if isLineEnd c then 0 else 2
    | digits + 1 => digits + 2 + escapeEnd (t.drop digits)
  | _ => 0

/-- The character with a given code. Zero, surrogates and numbers beyond the last code name none,
and become the replacement character. -/
def ofCode (n : Nat) : Char :=
  if n ≠ 0 ∧ n.isValidChar then Char.ofNat n else '\ufffd'

/-- The character that the escape at the start of a text stands for. -/
def escapedChar : Text → Char
  | _ :: c :: t =>
    match hexDigits (c :: t) with
    | [] => c
    | digits => ofCode (digits.foldl (fun n d => 16 * n + d) 0)
  | _ => '\\'

/-- The text that a name stands for: every escape is replaced by its character, and a backslash
that begins no escape stays. -/
def unescape : Text → Text
  | [] => []
  | c :: t =>
    match escapeLength (c :: t) with
    | 0 => c :: unescape t
    | n + 1 => escapedChar (c :: t) :: unescape (t.drop n)
termination_by t => t.length
decreasing_by all_goals simp only [List.length_cons, List.length_drop]; omega

/-! ### Names and numbers

Names are measured as they are written, escapes included; every character outside ASCII may stand
in a name. -/

def isAsciiLetter (c : Char) : Bool :=
  ('a' ≤ c && c ≤ 'z') || ('A' ≤ c && c ≤ 'Z')

def isAsciiDigit (c : Char) : Bool :=
  '0' ≤ c && c ≤ '9'

def isBeyondAscii (c : Char) : Bool :=
  127 < c.toNat

def isNameStart (c : Char) : Bool :=
  isAsciiLetter c || c = '_' || isBeyondAscii c

def isNameChar (c : Char) : Bool :=
  isNameStart c || isAsciiDigit c || c = '-'

def nameCharLength : Text → Nat
  | [] => 0
  | c :: t => if isNameChar c then 1 else escapeLength (c :: t)

def nameStartLength : Text → Nat
  | [] => 0
  | c :: t => if isNameStart c then 1 else escapeLength (c :: t)

def nameLength : Text → Nat
  | [] => 0
  | c :: t =>
    match nameCharLength (c :: t) with
    | 0 => 0
    | n + 1 => n + 1 + nameLength (t.drop n)
termination_by t => t.length
decreasing_by simp only [List.length_cons, List.length_drop]; omega

/-- Length of a run of name characters that begins with a character fit to begin an identifier. -/
def plainIdentifierLength (t : Text) : Nat :=
  match nameStartLength t with
  | 0 => 0
  | n + 1 => n + 1 + nameLength (t.drop (n + 1))

/-- Length of the longest identifier: two dashes and any name characters, or at most one dash and a
plain identifier. -/
def identifierLength : Text → Nat
  | '-' :: '-' :: t => 2 + nameLength t
  | '-' :: t =>
    match plainIdentifierLength t with
    | 0 => 0
    | n + 1 => n + 2
  | t => plainIdentifierLength t

def digitsLength (t : Text) : Nat :=
  (t.takeWhile isAsciiDigit).length

/-- Length of the longest whole number, which may have a minus sign. -/
def numberLength : Text → Nat
  | '-' :: t =>
    match digitsLength t with
    | 0 => 0
    | n + 1 => n + 2
  | t => digitsLength t

end Text

/-- The mark that opens and closes a string. -/
inductive QuoteMark where
  | single
  | double
  deriving DecidableEq, Repr

def QuoteMark.char : QuoteMark → Char
  | .single => '\''
  | .double => '"'

end SelectorXPath
