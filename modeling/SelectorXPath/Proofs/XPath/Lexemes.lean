import SelectorXPath.Proofs.Positions
import SelectorXPath.Proofs.XPath.Syntax

/-! The lexemes that an expression is written with. For an expression of a shape they derive it by
the grammar, and the names among them are bare. -/

namespace SelectorXPath.XPath

open SelectorXPath.Text

def Axis.lexemes : Axis → List Lexeme
  | .child => []
  | .attribute => [.atSign]
  | axis => [.axis axis.name, .twoColons]

def NodeTest.lexemes : NodeTest → List Lexeme
  | .any => [.star]
  | .named name => [.name name]
  | .text => [.nodeType "text".toList, .leftParenthesis, .rightParenthesis]

def NodeTest.names : NodeTest → List Text
  | .named name => [name]
  | _ => []

mutual

/-- The lexemes that a path is written with. -/
def LocationPath.lexemes : LocationPath → List Lexeme
  | .here => [.dot]
  | .step axis test => axis.lexemes ++ test.lexemes
  | .next path axis test => path.lexemes ++ .operator ['/'] :: (axis.lexemes ++ test.lexemes)
  | .filter path predicate =>
      path.lexemes ++ .leftBracket :: (predicate.lexemes ++ [.rightBracket])

def Expr.lexemes : Expr → List Lexeme
  | .path path => path.lexemes
  | .literal mark content => [.literal mark content]
  | .number n => [.number (Nat.toDigits 10 n)]
  | .call function arguments => .function function.spelling :: .leftParenthesis ::
      (argumentLexemes arguments ++ [.rightParenthesis])
  | .binary operator left right => left.lexemes ++ .operator operator.sign :: right.lexemes
  | .group inner => .leftParenthesis :: (inner.lexemes ++ [.rightParenthesis])
  | .nothing => []

def argumentLexemes : List Expr → List Lexeme
  | [] => []
  | argument :: more => argument.lexemes ++ moreLexemes more

def moreLexemes : List Expr → List Lexeme
  | [] => []
  | argument :: more => .comma :: (argument.lexemes ++ moreLexemes more)

end

mutual

/-- The names that the steps of a path spell out, those inside predicates included. -/
def LocationPath.names : LocationPath → List Text
  | .here => []
  | .step _ test => test.names
  | .next path _ test => path.names ++ test.names
  | .filter path predicate => path.names ++ predicate.names

def Expr.names : Expr → List Text
  | .path path => path.names
  | .call _ arguments => argumentNames arguments
  | .binary _ left right => left.names ++ right.names
  | .group inner => inner.names
  | _ => []

def argumentNames : List Expr → List Text
  | [] => []
  | argument :: arguments => argument.names ++ argumentNames arguments

end

/-- An operand that holds together more tightly may stand where a looser one is asked for. -/
theorem written_mono {e : Expr} {ts : List Lexeme} {level level' : Nat}
    (h : Written (.operand level e) ts) (hLevel : level' ≤ level) (hBound : level ≤ primaryLevel) :
    Written (.operand level' e) ts := by
  induction level with
  | zero =>
      obtain rfl : level' = 0 := by omega
      exact h
  | succ level ih =>
      by_cases hSame : level' = level + 1
      · exact hSame ▸ h
      · exact ih (.next (by omega) h) (by omega) (by omega)

/-- An axis is derived from its lexemes. -/
theorem Axis.writes_lexemes (axis : Axis) : WritesAxis axis axis.lexemes := by
  cases axis with
  | child => exact .child
  | «attribute» => exact .attribute
  | _ => exact .named

theorem NodeTest.writes_lexemes (test : NodeTest) : WritesTest test test.lexemes := by
  cases test with
  | any => exact .any
  | named => exact .named
  | text => exact .text

mutual

/-- A path is derived step by step. -/
theorem LocationPath.written : ∀ path : LocationPath, path.isShaped = true →
    Written (.path path) path.lexemes
  | .here, _ => .here
  | .step axis test, _ => .step axis.writes_lexemes test.writes_lexemes
  | .next path axis test, h => by
      rw [LocationPath.isShaped, Bool.and_eq_true] at h
      exact .slash (path.written h.1) axis.writes_lexemes test.writes_lexemes
  | .filter path predicate, h => by
      rw [LocationPath.isShaped, Bool.and_eq_true, Bool.and_eq_true] at h
      obtain ⟨shape, hShape⟩ := Option.isSome_iff_exists.mp h.2
      exact .predicate h.1.1 (path.written h.1.2)
        (predicate.written hShape (Nat.zero_le _))

/-- The lexemes of an expression derive it as an operand of every level that it is tight enough
for. -/
theorem Expr.written : ∀ (e : Expr) {k : Nat} {type : ValueType} {level : Nat},
    e.shape? = some (k, type) → level ≤ k → Written (.operand level e) e.lexemes
  | .path path, k, type, level, h, hLevel => by
      rw [Expr.shape?] at h
      split at h
      · rename_i hPath
        cases h
        exact written_mono (.path (path.written hPath)) hLevel (Nat.le_refl _)
      · cases h
  | .literal mark content, k, type, level, h, hLevel => by
      rw [Expr.shape?] at h
      split at h <;> cases h
      exact written_mono .literal hLevel (Nat.le_refl _)
  | .number n, k, type, level, h, hLevel => by
      cases h
      have hDigits : (Nat.toDigits 10 n).all isAsciiDigit = true :=
        List.all_eq_true.mpr fun c hc => AnPlusB.isAsciiDigit_of_mem_toDigits hc
      have hWritten := Written.number hDigits
      rw [Nat.ofDigitChars_ten_toDigits] at hWritten
      exact written_mono hWritten hLevel (Nat.le_refl _)
  | .call function arguments, k, type, level, h, hLevel => by
      rw [Expr.shape?] at h
      obtain ⟨types, hTypes, h⟩ := Option.bind_eq_some_iff.mp h
      obtain ⟨type', hType, hPair⟩ := Option.map_eq_some_iff.mp h
      cases hPair
      exact written_mono (.call (arguments_written arguments hTypes)) hLevel (Nat.le_refl _)
  | .binary operator left right, k, type, level, h, hLevel => by
      rw [Expr.shape?] at h
      obtain ⟨l, hLeft, h⟩ := Option.bind_eq_some_iff.mp h
      obtain ⟨r, hRight, h⟩ := Option.bind_eq_some_iff.mp h
      split at h
      · rename_i hLevels
        obtain ⟨type', hType, hPair⟩ := Option.map_eq_some_iff.mp h
        cases hPair
        exact written_mono
          (.binary (left.written hLeft hLevels.1) (right.written hRight hLevels.2)) hLevel
          (Nat.le_of_lt operator.level_lt)
      · cases h
  | .group inner, k, type, level, h, hLevel => by
      rw [Expr.shape?] at h
      obtain ⟨shape, hShape, hPair⟩ := Option.map_eq_some_iff.mp h
      cases hPair
      exact written_mono (.group (inner.written hShape (Nat.zero_le _))) hLevel (Nat.le_refl _)
  | .nothing, _, _, _, h, _ => by cases h

/-- The arguments of a call are derived, if there are any. -/
theorem arguments_written : ∀ (arguments : List Expr) {types : List ValueType},
    typesOf? arguments = some types → Written (.arguments arguments) (argumentLexemes arguments)
  | [], types, _ => .noArguments
  | [argument], types, h => by
      rw [typesOf?] at h
      obtain ⟨shape, hShape, h⟩ := Option.bind_eq_some_iff.mp h
      rw [argumentLexemes, moreLexemes, List.append_nil]
      exact .oneArgument (argument.written hShape (Nat.zero_le _))
  | argument :: next :: arguments, types, h => by
      rw [typesOf?] at h
      obtain ⟨shape, hShape, h⟩ := Option.bind_eq_some_iff.mp h
      obtain ⟨more, hMore, -⟩ := Option.map_eq_some_iff.mp h
      exact .moreArguments (argument.written hShape (Nat.zero_le _))
        (arguments_written (next :: arguments) hMore)

end

theorem NodeTest.isBareName_of_mem_names {test : NodeTest} (h : test.isBare = true) :
    ∀ name ∈ test.names, isBareName name = true := by
  cases test with
  | named name => simpa [NodeTest.names, NodeTest.isBare] using h
  | _ => simp [NodeTest.names]

mutual

/-- The names that a path spells out are bare, since it would have no shape otherwise. -/
theorem LocationPath.isBareName_of_mem_names : ∀ (path : LocationPath), path.isShaped = true →
    ∀ name ∈ path.names, isBareName name = true
  | .here, _ => by simp [LocationPath.names]
  | .step _ _, h => NodeTest.isBareName_of_mem_names h
  | .next path _ test, h => by
      rw [LocationPath.isShaped, Bool.and_eq_true] at h
      rw [LocationPath.names, List.forall_mem_append]
      exact ⟨path.isBareName_of_mem_names h.1, NodeTest.isBareName_of_mem_names h.2⟩
  | .filter path predicate, h => by
      rw [LocationPath.isShaped, Bool.and_eq_true, Bool.and_eq_true] at h
      obtain ⟨⟨k, type⟩, hShape⟩ := Option.isSome_iff_exists.mp h.2
      rw [LocationPath.names, List.forall_mem_append]
      exact ⟨path.isBareName_of_mem_names h.1.2, predicate.isBareName_of_mem_names hShape⟩

/-- The names in an expression that has a shape are bare. -/
theorem Expr.isBareName_of_mem_names : ∀ (e : Expr) {k : Nat} {type : ValueType},
    e.shape? = some (k, type) → ∀ name ∈ e.names, isBareName name = true
  | .path path, k, type, h => by
      rw [Expr.shape?] at h
      split at h
      · rename_i hPath
        exact path.isBareName_of_mem_names hPath
      · cases h
  | .literal .., _, _, _ | .number _, _, _, _ | .nothing, _, _, _ => by simp [Expr.names]
  | .call function arguments, k, type, h => by
      rw [Expr.shape?] at h
      obtain ⟨types, hTypes, -⟩ := Option.bind_eq_some_iff.mp h
      exact isBareName_of_mem_argumentNames arguments hTypes
  | .binary operator left right, k, type, h => by
      rw [Expr.shape?] at h
      obtain ⟨l, hLeft, h⟩ := Option.bind_eq_some_iff.mp h
      obtain ⟨r, hRight, -⟩ := Option.bind_eq_some_iff.mp h
      rw [Expr.names, List.forall_mem_append]
      exact ⟨left.isBareName_of_mem_names hLeft, right.isBareName_of_mem_names hRight⟩
  | .group inner, k, type, h => by
      rw [Expr.shape?] at h
      obtain ⟨shape, hShape, -⟩ := Option.map_eq_some_iff.mp h
      exact inner.isBareName_of_mem_names hShape

theorem isBareName_of_mem_argumentNames : ∀ (arguments : List Expr) {types : List ValueType},
    typesOf? arguments = some types → ∀ name ∈ argumentNames arguments, isBareName name = true
  | [], _, _ => by simp [argumentNames]
  | argument :: more, types, h => by
      rw [typesOf?] at h
      obtain ⟨shape, hShape, h⟩ := Option.bind_eq_some_iff.mp h
      obtain ⟨types', hTypes, -⟩ := Option.map_eq_some_iff.mp h
      rw [argumentNames, List.forall_mem_append]
      exact ⟨argument.isBareName_of_mem_names hShape,
        isBareName_of_mem_argumentNames more hTypes⟩

end

end SelectorXPath.XPath
