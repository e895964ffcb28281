import SelectorXPath.Text.Letter
import SelectorXPath.XPath.Basic

/-!
# Phrases of XPath

Names, string constants, and short names for the expressions that conditions are built from.

An attribute whose name is plain enough is addressed as `@name`. Any other name has to be compared
as a string. XPath has no escapes inside a string constant, so a text that holds both quotation
marks cannot be one constant. It is put together by `concat` instead, from pieces that each lack one
of the marks.
-/

namespace SelectorXPath.XPath

open SelectorXPath.Text

def isBareStart (c : Char) : Bool :=
  isLetter c || c = '_'

def isBareChar (c : Char) : Bool :=
  isBareStart c || isLetterOrNumber c || c = '-' || c = '.'

/-- Names that a node test can spell out: no colon, and no digit, dash or dot in front. -/
def isBareName : Text → Bool
  | [] => false
  | c :: t => isBareStart c && t.all isBareChar

/-- Cuts a text into constants: every apostrophe by itself, and the text between two of them. -/
def pieces : Text → List (QuoteMark × Text)
  | [] => []
  | c :: t =>
    if c = '\'' then (.double, [c]) :: pieces t
    else
      match pieces t with
      | (.single, run) :: more => (.single, c :: run) :: more
      | more => (.single, [c]) :: more

/-- The expression whose value is the text `t`: one constant where one of the marks is free, else
the concatenation of its pieces. -/
def quote (t : Text) : Expr :=
  if '\'' ∉ t then .literal .single t
  else if '"' ∉ t then .literal .double t
  else .call .concat ((pieces t).map fun piece => .literal piece.1 piece.2)

namespace Expr

/-- The two sides are equal; of a set of nodes, one node's text is. -/
def equals (left right : Expr) : Expr :=
  .binary .equal left right

/-- The name of the context node, with its prefix, is this one. -/
def nameIs (name : Text) : Expr :=
  equals (.call .name []) (quote name)

def localNameIs (name : Text) : Expr :=
  equals (.call .localName []) (quote name)

def namespaceIs (uri : Text) : Expr :=
  equals (.call .namespaceUri []) (quote uri)

def negation (condition : Expr) : Expr :=
  .call .not [condition]

def never : Expr :=
  .call .false []

/-- The text of a node with its words one space apart, and a space at both ends. -/
def paddedWords (node : Expr) : Expr :=
  .call .concat [quote [' '], .call .normalizeSpace [node], quote [' ']]

def hasWord (node : Expr) (word : Text) : Expr :=
  .call .contains [paddedWords node, quote (' ' :: word ++ [' '])]

end Expr

namespace LocationPath

def elements (axis : Axis) : LocationPath :=
  .step axis .any

def attributesWith (condition : Expr) : LocationPath :=
  .filter (.step .attribute .any) condition

/-- The attribute of a name that can be written bare. -/
def attributeNamed (name : Text) : LocationPath :=
  .step .attribute (.named name)

/-- What satisfies all of the conditions; without any, no predicate is written. -/
def restrict (path : LocationPath) (conditions : List Expr) : LocationPath :=
  if conditions.isEmpty then path else .filter path (Expr.allOf conditions)

end LocationPath

end SelectorXPath.XPath
