import SelectorXPath.AnPlusB

/-!
# Selectors

The structure of a parsed selector, in the terms of the selector grammar. A *simple* selector is
one condition on an element. A *compound* is several of them for the same element. A *complex*
selector is a chain of compounds with combinators between them, and a *list* has several complex
selectors as alternatives. Two kinds of simple selector hold a list again.

Chains lean to the left: the compound on the far right is the outermost one, because it is the one
that the selected element has to satisfy, and what stands to its left only says where that element
lies.
-/

namespace SelectorXPath

/-- What stands in front of the bar of a qualified name. -/
inductive Qualifier where
  /-- There is no bar. -/
  | absent
  /-- An asterisk: every namespace, and none. -/
  | any
  /-- Nothing: no namespace. -/
  | noNamespace
  /-- A prefix that is bound to a namespace elsewhere. -/
  | named (name : Text)
  deriving DecidableEq, Repr

/-- How a value is compared with that of an attribute. -/
inductive AttributeOperator where
  /-- The values are equal. -/
  | equals
  /-- The value is one of the words of the attribute. -/
  | includes
  /-- The value is the attribute's, or its beginning up to a dash. -/
  | dashMatch
  /-- The value begins the attribute's. -/
  | beginning
  /-- The value ends the attribute's. -/
  | ending
  /-- The value lies inside the attribute's. -/
  | inside
  deriving DecidableEq, Repr

def AttributeOperator.ofSymbol? : Text → Option AttributeOperator
  | ['='] => some .equals
  | ['~', '='] => some .includes
  | ['|', '='] => some .dashMatch
  | ['^', '='] => some .beginning
  | ['$', '='] => some .ending
  | ['*', '='] => some .inside
  | _ => none

structure Comparison where
  operator : AttributeOperator
  value : Text
  deriving DecidableEq, Repr

/-- An attribute that must be there, and perhaps what its value must be like. -/
structure AttributeTest where
  name : Text
  qualifier : Qualifier
  comparison : Option Comparison
  deriving DecidableEq, Repr

inductive PseudoClass where
  | firstChild
  | lastChild
  | onlyChild
  | firstOfType
  | lastOfType
  | onlyOfType
  | empty
  | root
  | checked
  | disabled
  | enabled
  deriving DecidableEq, Repr

namespace PseudoClass

def name : PseudoClass → Text
  | .firstChild => "first-child".toList
  | .lastChild => "last-child".toList
  | .onlyChild => "only-child".toList
  | .firstOfType => "first-of-type".toList
  | .lastOfType => "last-of-type".toList
  | .onlyOfType => "only-of-type".toList
  | .empty => "empty".toList
  | .root => "root".toList
  | .checked => "checked".toList
  | .disabled => "disabled".toList
  | .enabled => "enabled".toList

def every : List PseudoClass :=
  [.firstChild, .lastChild, .onlyChild, .firstOfType, .lastOfType, .onlyOfType, .empty, .root,
    .checked, .disabled, .enabled]

def ofName? (name : Text) : Option PseudoClass :=
  every.find? (fun p => p.name = name)

end PseudoClass

/-- What the position of an element is counted among, and from which end. -/
inductive Counting where
  | child
  | lastChild
  | ofType
  | lastOfType
  deriving DecidableEq, Repr

inductive FunctionalClass where
  | nth (counting : Counting)
  | not
  | has
  | contains
  deriving DecidableEq, Repr

namespace FunctionalClass

def name : FunctionalClass → Text
  | .nth .child => "nth-child".toList
  | .nth .lastChild => "nth-last-child".toList
  | .nth .ofType => "nth-of-type".toList
  | .nth .lastOfType => "nth-last-of-type".toList
  | .not => "not".toList
  | .has => "has".toList
  | .contains => "contains".toList

def every : List FunctionalClass :=
  [.nth .child, .nth .lastChild, .nth .ofType, .nth .lastOfType, .not, .has, .contains]

def ofName? (name : Text) : Option FunctionalClass :=
  every.find? (fun p => p.name = name)

end FunctionalClass

/-- How the elements of two neighbouring compounds lie to each other. -/
inductive Combinator where
  | descendant
  | child
  /-- The right one is the next sibling. -/
  | adjacent
  /-- The right one is some later sibling. -/
  | sibling
  deriving DecidableEq, Repr

/-- The combinator that a sign stands for. White space is no sign. -/
def Combinator.ofSymbol? : Text → Option Combinator
  | ['>'] => some .child
  | ['+'] => some .adjacent
  | ['~'] => some .sibling
  | _ => none

mutual

/-- One condition on an element. -/
inductive Simple where
  /-- The element's name. -/
  | type (name : Text) (qualifier : Qualifier)
  /-- An element of any name. -/
  | universal (qualifier : Qualifier)
  /-- A word of the `class` attribute. -/
  | class (name : Text)
  /-- The value of the `id` attribute. -/
  | id (name : Text)
  | attribute (test : AttributeTest)
  | pseudo (pseudoClass : PseudoClass)
  /-- The element's position. -/
  | nth (counting : Counting) (positions : AnPlusB)
  /-- None of the selectors selects the element. -/
  | not (list : List Complex)
  /-- One of the selectors selects an element below. -/
  | has (list : List Complex)
  /-- The text of the element holds this one. -/
  | contains (text : Text)

/-- Conditions on one element, and the byte offset in the source at which they begin. -/
structure Compound where
  offset : Nat
  parts : List Simple

inductive Complex where
  | single (compound : Compound)
  | joined (left : Complex) (combinator : Combinator) (right : Compound)

end

/-- Alternatives. -/
abbrev SelectorList := List Complex

/-- Name and qualifier of the type selector, if the compound begins with one. -/
def Compound.typeSelector? (compound : Compound) : Option (Text × Qualifier) :=
  match compound.parts with
  | .type name qualifier :: _ => some (name, qualifier)
  | _ => none

namespace Complex

def subject : Complex → Compound
  | .single compound => compound
  | .joined _ _ right => right

def leftmost : Complex → Compound
  | .single compound => compound
  | .joined left _ _ => left.leftmost

/-- The other compounds from left to right, each with the combinator in front of it, and `more`
behind them. -/
def linksBefore (more : List (Combinator × Compound)) : Complex → List (Combinator × Compound)
  | .single _ => more
  | .joined left combinator right => left.linksBefore ((combinator, right) :: more)

/-- The compounds behind the leftmost one, each with the combinator in front of it. -/
def links (c : Complex) : List (Combinator × Compound) :=
  c.linksBefore []

/-- The chain that begins with a compound and goes on with the given links. -/
def ofLinks (first : Compound) (links : List (Combinator × Compound)) : Complex :=
  links.foldl (fun left link => left.joined link.1 link.2) (.single first)

end Complex

end SelectorXPath
