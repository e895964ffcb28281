import SelectorXPath.Text.Basic

/-!
# XPath expressions

The part of XPath 1.0 that selectors need: location paths over eight axes, string and number
constants, a dozen functions and the binary operators, each in the abbreviated spelling where there
is one. `Expr.text` writes an expression down.

A predicate belongs to the last step of its path, as in XPath itself: `LocationPath.filter` narrows
what the step under it has reached from each node, so that a number as predicate counts along that
step's axis. Nothing is grouped on its own account while writing; where the grammar needs
parentheses the expression holds a `group`.
-/

namespace SelectorXPath.XPath

inductive Axis where
  | child
  | descendant
  | descendantOrSelf
  | parent
  | ancestor
  | followingSibling
  | precedingSibling
  | attribute
  deriving DecidableEq, Repr

/-- How a step announces its axis. Children need no announcement. -/
def Axis.specifier : Axis → Text
  | .child => []
  | .descendant => "descendant::".toList
  | .descendantOrSelf => "descendant-or-self::".toList
  | .parent => "parent::".toList
  | .ancestor => "ancestor::".toList
  | .followingSibling => "following-sibling::".toList
  | .precedingSibling => "preceding-sibling::".toList
  | .attribute => ['@']

/-- What a step keeps of the nodes on its axis. -/
inductive NodeTest where
  /-- Every node of the axis' own kind: elements, or attributes on the attribute axis. -/
  | any
  /-- Those with this name. -/
  | named (name : Text)
  /-- Text nodes. -/
  | text
  deriving DecidableEq, Repr

def NodeTest.spelling : NodeTest → Text
  | .any => ['*']
  | .named name => name
  | .text => "text()".toList

inductive CoreFunction where
  | concat
  | contains
  | count
  | false
  | localName
  | name
  | namespaceUri
  | normalizeSpace
  | not
  | startsWith
  | stringLength
  | substring
  | true
  deriving DecidableEq, Repr

def CoreFunction.spelling : CoreFunction → Text
  | .concat => "concat".toList
  | .contains => "contains".toList
  | .count => "count".toList
  | .false => "false".toList
  | .localName => "local-name".toList
  | .name => "name".toList
  | .namespaceUri => "namespace-uri".toList
  | .normalizeSpace => "normalize-space".toList
  | .not => "not".toList
  | .startsWith => "starts-with".toList
  | .stringLength => "string-length".toList
  | .substring => "substring".toList
  | .true => "true".toList

inductive Operator where
  | or
  | and
  | equal
  | atMost
  | atLeast
  | plus
  | minus
  | modulo
  | union
  deriving DecidableEq, Repr

/-- The spelling of an operator between its operands. Comparisons stand close, all others between
spaces. -/
def Operator.spelling : Operator → Text
  | .or => " or ".toList
  | .and => " and ".toList
  | .equal => "=".toList
  | .atMost => "<=".toList
  | .atLeast => ">=".toList
  | .plus => " + ".toList
  | .minus => " - ".toList
  | .modulo => " mod ".toList
  | .union => " | ".toList

mutual

inductive LocationPath where
  /-- The context node itself. -/
  | here
  /-- One step from the context node. -/
  | step (axis : Axis) (test : NodeTest)
  /-- One step more, from every node reached so far. -/
  | next (path : LocationPath) (axis : Axis) (test : NodeTest)
  /-- What the predicate leaves of the last step. -/
  | filter (path : LocationPath) (predicate : Expr)

inductive Expr where
  | path (path : LocationPath)
  /-- A string constant, written between two of the marks; the text must not hold the mark. -/
  | literal (mark : QuoteMark) (text : Text)
  | number (value : Nat)
  | call (function : CoreFunction) (arguments : List Expr)
  | binary (operator : Operator) (left right : Expr)
  /-- An expression in parentheses. -/
  | group (inner : Expr)
  /-- No expression at all: what an empty list of alternatives amounts to. -/
  | nothing

end

mutual

def LocationPath.write : LocationPath → Text → Text
  | .here, rest => '.' :: rest
  | .step axis test, rest => axis.specifier ++ (test.spelling ++ rest)
  | .next path axis test, rest => path.write ('/' :: (axis.specifier ++ (test.spelling ++ rest)))
  | .filter path predicate, rest => path.write ('[' :: predicate.write (']' :: rest))

/-- Writes an expression in front of `rest`. -/
def Expr.write : Expr → Text → Text
  | .path path, rest => path.write rest
  | .literal mark text, rest => mark.char :: (text ++ mark.char :: rest)
  | .number value, rest => Nat.toDigits 10 value ++ rest
  | .call function arguments, rest =>
    function.spelling ++ '(' :: writeArguments arguments (')' :: rest)
  | .binary operator left right, rest => left.write (operator.spelling ++ right.write rest)
  | .group inner, rest => '(' :: inner.write (')' :: rest)
  | .nothing, rest => rest

def writeArguments : List Expr → Text → Text
  | [], rest => rest
  | argument :: more, rest => argument.write (writeMoreArguments more rest)

/-- Writes the arguments behind the first in front of `rest`, each behind a comma. -/
def writeMoreArguments : List Expr → Text → Text
  | [], rest => rest
  | argument :: more, rest => ',' :: ' ' :: argument.write (writeMoreArguments more rest)

end

mutual

/-- What stands behind a path does not change how the path is written. -/
theorem LocationPath.write_eq_append :
    ∀ (path : LocationPath) (rest : Text), path.write rest = path.write [] ++ rest
  | .here, rest => by simp [LocationPath.write]
  | .step axis test, rest => by simp [LocationPath.write]
  | .next path axis test, rest => by
    simp only [LocationPath.write]
    rw [path.write_eq_append, path.write_eq_append (_ :: (_ ++ (_ ++ [])))]
    simp
  | .filter path predicate, rest => by
    simp only [LocationPath.write]
    rw [path.write_eq_append, path.write_eq_append (_ :: predicate.write [']']),
      predicate.write_eq_append, predicate.write_eq_append [']']]
    simp

/-- Writing in front of a text is writing, and then the text. -/
theorem Expr.write_eq_append :
    ∀ (e : Expr) (rest : Text), e.write rest = e.write [] ++ rest
  | .path path, rest => by
    simp only [Expr.write]
    exact path.write_eq_append rest
  | .literal mark text, rest => by simp [Expr.write]
  | .number value, rest => by simp [Expr.write]
  | .call function arguments, rest => by
    simp only [Expr.write]
    rw [writeArguments_eq_append arguments, writeArguments_eq_append arguments [')']]
    simp
  | .binary operator left right, rest => by
    simp only [Expr.write]
    rw [left.write_eq_append, left.write_eq_append (operator.spelling ++ right.write []),
      right.write_eq_append]
    simp
  | .group inner, rest => by
    simp only [Expr.write]
    rw [inner.write_eq_append, inner.write_eq_append [')']]
    simp
  | .nothing, rest => by simp [Expr.write]

/-- What stands behind the arguments of a call does not change how they are written. -/
theorem writeArguments_eq_append :
    ∀ (arguments : List Expr) (rest : Text),
      writeArguments arguments rest = writeArguments arguments [] ++ rest
  | [], rest => by simp [writeArguments]
  | argument :: more, rest => by
    simp only [writeArguments]
    rw [argument.write_eq_append, argument.write_eq_append (writeMoreArguments more []),
      writeMoreArguments_eq_append]
    simp

theorem writeMoreArguments_eq_append :
    ∀ (arguments : List Expr) (rest : Text),
      writeMoreArguments arguments rest = writeMoreArguments arguments [] ++ rest
  | [], rest => by simp [writeMoreArguments]
  | argument :: more, rest => by
    simp only [writeMoreArguments]
    rw [argument.write_eq_append, argument.write_eq_append (writeMoreArguments more []),
      writeMoreArguments_eq_append]
    simp

end

def Expr.text (e : Expr) : Text :=
  e.write []

namespace Expr

/-- Several expressions between operators of one kind, read from the left; `empty` stands for none.
-/
def joined (operator : Operator) (empty : Expr) : List Expr → Expr
  | [] => empty
  | first :: more => more.foldl (binary operator) first

def allOf (conditions : List Expr) : Expr :=
  joined .and (call .true []) conditions

def anyOf (conditions : List Expr) : Expr :=
  joined .or nothing conditions

def unionOf (branches : List Expr) : Expr :=
  joined .union nothing branches

end Expr

end SelectorXPath.XPath
