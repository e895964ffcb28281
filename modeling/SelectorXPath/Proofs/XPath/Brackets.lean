import SelectorXPath.Proofs.Nesting
import SelectorXPath.Proofs.XPath.Legible

/-! What a text looks like that has lexemes, and one that is an expression. It is made of the
spellings of its lexemes, with white space between them, and every string constant in it is closed.
By the grammar the brackets and parentheses among the lexemes of an expression are nested. -/

namespace SelectorXPath.XPath

open SelectorXPath.Text

namespace Lexeme

def spelling : Lexeme → Text
  | .leftParenthesis => ['(']
  | .rightParenthesis => [')']
  | .leftBracket => ['[']
  | .rightBracket => [']']
  | .dot => ['.']
  | .twoDots => ['.', '.']
  | .atSign => ['@']
  | .comma => [',']
  | .twoColons => [':', ':']
  | .star => ['*']
  | .name word => word
  | .nodeType word => word
  | .function word => word
  | .axis word => word
  | .literal mark content => mark.char :: (content ++ [mark.char])
  | .number digits => digits
  | .operator sign => sign

/-- A string constant is closed by the first mark behind the one that opens it. -/
def IsClosed : Lexeme → Prop
  | .literal mark content => mark.char ∉ content
  | _ => True

/-- The brackets and parentheses among the lexemes. -/
def marks : Marks Lexeme where
  closing?
    | .leftParenthesis => some .rightParenthesis
    | .leftBracket => some .rightBracket
    | _ => none
  isClosing
    | .rightParenthesis | .rightBracket => true
    | _ => false
  isStray _ _ := false

end Lexeme

/-- A text is made of the spellings of these lexemes, with white space around them. -/
inductive Spells : List Lexeme → Text → Prop where
  | nil : Spells [] []
  | space {c : Char} {xs : List Lexeme} {t : Text} (h : isXmlSpace c = true) (rest : Spells xs t) :
      Spells xs (c :: t)
  | lexeme {x : Lexeme} {xs : List Lexeme} {t : Text} (h : x.IsClosed) (rest : Spells xs t) :
      Spells (x :: xs) (x.spelling ++ t)

section

variable {N : NameClass} {operand : Bool} {t : Text} {x : Lexeme} {n : Nat}

/-- The text begins with the spelling of the lexeme. -/
structure Begins (t : Text) (x : Lexeme) (n : Nat) : Prop where
  pos : 0 < n
  take_eq : t.take n = x.spelling
  closed : x.IsClosed

theorem not_mem_takeWhile_ne (c : Char) (t : Text) : c ∉ t.takeWhile (· ≠ c) := by
  intro hMem
  have hAll := List.all_eq_true.mp (List.all_takeWhile (p := (· ≠ c)) (l := t)) c hMem
  simp at hAll

/-- What stands in front of a character, and the character. -/
theorem take_takeWhile_ne {c : Char} (h : c ∈ t) :
    t.take ((t.takeWhile (· ≠ c)).length + 1) = t.takeWhile (· ≠ c) ++ [c] := by
  induction t with
  | nil => cases h
  | cons d t ih =>
      by_cases hSame : d = c
      · simp [hSame]
      · have hMem : c ∈ t := by simpa [Ne.symm hSame] using h
        rw [List.takeWhile_cons_of_pos (by simpa using hSame), List.length_cons,
          List.take_succ_cons, ih hMem, List.cons_append]

/-- A string constant is read up to the first mark like its opening one. -/
theorem begins_of_literal? (mark : QuoteMark) (h : literal? mark t = some (x, n)) :
    Begins (mark.char :: t) x n := by
  rw [literal?] at h
  split at h <;> cases h
  rename_i hMark
  refine ⟨Nat.succ_pos _, ?_, not_mem_takeWhile_ne _ t⟩
  rw [List.take_succ_cons, take_takeWhile_ne hMark]
  rfl

theorem begins_longer {sign next : Char} (h : longer sign next t = (x, n)) :
    Begins (sign :: t) x n := by
  rw [longer] at h
  split at h <;> cases h
  · rename_i hNext
    obtain ⟨t, rfl⟩ := List.head?_eq_some_iff.mp hNext
    exact ⟨by decide, rfl, trivial⟩
  · exact ⟨by decide, rfl, trivial⟩

/-- A name is one lexeme, whatever it is taken for. -/
theorem begins_nameLexeme? {name rest : Text} (h : nameLexeme? operand name rest = some x) :
    x.spelling = name ∧ x.IsClosed := by
  unfold nameLexeme? at h
  split at h
  · split at h <;> cases h
    exact ⟨rfl, trivial⟩
  · split at h <;> cases h
    · split <;> exact ⟨rfl, trivial⟩
    · exact ⟨rfl, trivial⟩
    · exact ⟨rfl, trivial⟩

theorem decimalLength_pos {c : Char} (h : isAsciiDigit c = true) : 0 < decimalLength (c :: t) := by
  have hWhole : 0 < digitsLength (c :: t) := by simp [digitsLength, h]
  rw [decimalLength]
  split <;> omega

theorem decimalLength_point_pos : 0 < decimalLength ('.' :: t) := by
  have hWhole : digitsLength ('.' :: t) = 0 := rfl
  rw [decimalLength, hWhole]
  show 0 < 0 + 1 + digitsLength t
  omega

/-- Every lexeme is spelled by the text that it is read from. -/
theorem begins_of_lexeme? (h : lexeme? N operand t = some (x, n)) : Begins t x n := by
  unfold lexeme? at h
  split at h
  case h_1 => cases h
  case h_8 =>
    -- one colon is no lexeme
    split at h <;> cases h
    rename_i hNext
    obtain ⟨t, rfl⟩ := List.head?_eq_some_iff.mp hNext
    exact ⟨by decide, rfl, trivial⟩
  case h_9 => exact begins_of_literal? .single h
  case h_10 => exact begins_of_literal? .double h
  case h_11 =>
    -- nor is an exclamation mark without an equals sign
    split at h <;> cases h
    rename_i hNext
    obtain ⟨t, rfl⟩ := List.head?_eq_some_iff.mp hNext
    exact ⟨by decide, rfl, trivial⟩
  case h_12 | h_13 | h_14 => exact begins_longer (Option.some.inj h)
  case h_19 => split at h <;> cases h <;> exact ⟨by decide, rfl, trivial⟩
  case h_20 =>
    -- a point: two of them, the start of a fraction, or one alone
    split at h
    · rename_i hNext
      obtain ⟨t, rfl⟩ := List.head?_eq_some_iff.mp hNext
      cases h
      exact ⟨by decide, rfl, trivial⟩
    · split at h <;> cases h
      · exact ⟨decimalLength_point_pos, rfl, trivial⟩
      · exact ⟨by decide, rfl, trivial⟩
  case h_21 =>
    -- no sign begins the text, so it begins with a number or with a name
    split at h
    · rename_i hDigit
      cases h
      exact ⟨decimalLength_pos hDigit, rfl, trivial⟩
    · split at h
      · dsimp only at h
        obtain ⟨lexeme, hLexeme, hPair⟩ := Option.map_eq_some_iff.mp h
        cases hPair
        obtain ⟨hSpelling, hClosed⟩ := begins_nameLexeme? hLexeme
        refine ⟨Nat.succ_pos _, ?_, hClosed⟩
        rw [hSpelling, List.length_cons, List.take_succ_cons]
        congr 1
        exact List.prefix_iff_eq_take.mp (List.takeWhile_prefix _) |>.symm
      · cases h
  all_goals
    cases h
    exact ⟨by decide, rfl, trivial⟩

end

/-- A text that has lexemes is made of them. -/
theorem spells_of_lex {N : NameClass} {operand : Bool} {t : Text} {xs : List Lexeme}
    (h : lex N operand t = some xs) : Spells xs t := by
  fun_induction lex N operand t generalizing xs with
  | case1 =>
      cases h
      exact .nil
  | case2 operand c t hSpace ih => exact .space hSpace (ih h)
  | case3 => cases h
  | case4 operand c t hSpace lexeme n hLexeme ih =>
      obtain ⟨more, hMore, rfl⟩ := Option.map_eq_some_iff.mp h
      obtain ⟨hPos, hTake, hClosed⟩ := begins_of_lexeme? hLexeme
      obtain ⟨k, rfl⟩ := Nat.exists_eq_succ_of_ne_zero (Nat.ne_of_gt hPos)
      have hText : c :: t = lexeme.spelling ++ t.drop k := by
        rw [← hTake, ← List.drop_succ_cons (a := c), List.take_append_drop]
      rw [hText]
      exact .lexeme hClosed (ih hMore)

section

variable {e : Expr} {level : Nat} {type : ValueType}

/-- What is written for an expression of a shape has the lexemes of the expression. -/
theorem lex_text (h : e.Fits level type) : lex .bare Bool.false e.text = some e.lexemes := by
  obtain ⟨k, hShape, -⟩ := h
  have hNames : ∀ name ∈ e.names, NameClass.bare.isName name = true := by
    intro name hName
    rw [NameClass.isName_bare, e.isBareName_of_mem_names hShape name hName]
  have hOpens := e.opens_write hShape hNames Ends.nil
  rwa [Opens, lex, Option.map_some, List.append_nil] at hOpens

/-- An expression that fits is derived from the lexemes it is written with. -/
theorem written_lexemes (h : e.Fits level type) : Written (.operand 0 e) e.lexemes := by
  obtain ⟨k, hShape, -⟩ := h
  exact e.written hShape (Nat.zero_le k)

end

section

variable {outer : Option Lexeme}

/-- An axis has no brackets. -/
theorem nested_of_writesAxis {axis : Axis} {xs : List Lexeme} (h : WritesAxis axis xs) :
    Lexeme.marks.Nested outer xs := by
  cases h with
  | named => exact .plain rfl (.plain rfl .nil)
  | «attribute» => exact .plain rfl .nil
  | child => exact .nil

/-- The parentheses of a node type are closed at once. -/
theorem nested_of_writesTest {test : NodeTest} {xs : List Lexeme} (h : WritesTest test xs) :
    Lexeme.marks.Nested outer xs := by
  cases h with
  | any => exact .plain rfl .nil
  | named => exact .plain rfl .nil
  | text => exact .plain rfl (.enclosed rfl .nil .nil)

/-- Brackets and parentheses are nested in all that the grammar derives. -/
theorem nested_of_written {phrase : Phrase} {xs : List Lexeme} (h : Written phrase xs) :
    Lexeme.marks.Nested outer xs := by
  induction h generalizing outer with
  | next _ _ ih => exact ih
  | binary _ _ ihLeft ihRight => exact ihLeft.append (.plain rfl ihRight)
  | path _ ih => exact ih
  | literal => exact .plain rfl .nil
  | number => exact .plain rfl .nil
  | call _ ih => exact .plain rfl (.enclosed rfl ih .nil)
  | group _ ih => exact .enclosed rfl ih .nil
  | here => exact .plain rfl .nil
  | step hAxis hTest => exact (nested_of_writesAxis hAxis).append (nested_of_writesTest hTest)
  | slash _ hAxis hTest ih =>
      apply ih.append
      exact .plain rfl ((nested_of_writesAxis hAxis).append (nested_of_writesTest hTest))
  | predicate _ _ _ ihPath ih => exact ihPath.append (.enclosed rfl ih .nil)
  | noArguments => exact .nil
  | oneArgument _ ih => exact ih
  | moreArguments _ _ ih ihMore => exact ih.append (.plain rfl ihMore)

end

end SelectorXPath.XPath
