import Mathlib.Data.List.Infix
import Mathlib.Data.Option.NAry
import SelectorXPath.Proofs.Document.Tree
import SelectorXPath.XPath.Basic

/-! The values of expressions at a node of a document. A step keeps what it reaches from one node
apart from what it reaches from another, since a number as predicate counts along the axis, from
the nearest node on. Numbers are whole, or none at all where a computation has no result. Texts are
never read as numbers, and a function that is given what it does not take has the empty text as its
value. Expressions that have a type do neither. -/

namespace SelectorXPath

open SelectorXPath.Text

namespace Document

variable (d : Document)

def childAddresses (p : Address) : List Address :=
  (List.range (d.children p).length).map (· :: p)

def siblingsAfter : Address → List Address
  | [] => []
  | i :: p => (List.range' (i + 1) ((d.children p).length - (i + 1))).map (· :: p)

def siblingsBefore : Address → List Address
  | [] => []
  | i :: p => (List.range i).reverse.map (· :: p)

def ancestors : Address → List Address
  | [] => []
  | _ :: p => p :: ancestors p

end Document

namespace XPath

/-- The nodes on an axis, from the nearest on. -/
def Axis.nodes (d : Document) : Axis → Node → List Node
  | .child, .tree p => (d.childAddresses p).map .tree
  | .descendant, .tree p => (d.descendants p).map .tree
  | .descendantOrSelf, .tree p => .tree p :: (d.descendants p).map .tree
  | .descendantOrSelf, .attribute p i => [.attribute p i]
  | .parent, .tree [] => []
  | .parent, .tree (_ :: p) => [.tree p]
  | .parent, .attribute p _ => [.tree p]
  | .ancestor, .tree p => (Document.ancestors p).map .tree
  | .ancestor, .attribute p _ => (p :: Document.ancestors p).map .tree
  | .followingSibling, .tree p => (d.siblingsAfter p).map .tree
  | .precedingSibling, .tree p => (Document.siblingsBefore p).map .tree
  | .attribute, .tree p => (List.range (d.attributes p).length).map (.attribute p)
  | _, .attribute _ _ => []

end XPath

namespace Document

variable (d : Document)

def nameOf : Node → NodeName
  | .tree p =>
      match d.tree? p with
      | some (.element name _ _) => name
      | some (.instruction target _) => ⟨target, target, []⟩
      | _ => ⟨[], [], []⟩
  | .attribute p i =>
      match (d.attributes p)[i]? with
      | some a => a.name
      | none => ⟨[], [], []⟩

def stringValue : Node → Text
  | .tree [] => Tree.innerText d.content
  | .tree p =>
      match d.tree? p with
      | some tree => tree.stringValue
      | none => []
  | .attribute p i =>
      match (d.attributes p)[i]? with
      | some a => a.value
      | none => []

/-- Every node in the order of the document. The attributes of an element stand in front of its
children. -/
def nodes : List Node :=
  ([] :: d.descendants []).flatMap fun p => .tree p :: XPath.Axis.attribute.nodes d (.tree p)

/-- The first of some nodes in the order of the document. -/
def first? (list : List Node) : Option Node :=
  d.nodes.find? (· ∈ list)

end Document

namespace XPath

/-- Whether a node that an axis reaches passes a test. A name in a test has no prefix, so it names
what lies in no namespace. -/
def NodeTest.passes (d : Document) : NodeTest → Node → Bool
  | .any, .tree p => ((d.tree? p).map Tree.isElement).getD false
  | .any, .attribute _ _ => true
  | .named name, .tree p =>
      match d.tree? p with
      | some (.element n _ _) => n.localPart = name && n.uri = []
      | _ => false
  | .named name, .attribute p i =>
      match (d.attributes p)[i]? with
      | some a => a.name.localPart = name && a.name.uri = []
      | none => false
  | .text, .tree p =>
      match d.tree? p with
      | some (.text _) => true
      | _ => false
  | .text, .attribute _ _ => false

/-- An axis has nodes of one kind that it is meant for, and only those pass as any node. -/
def Axis.isPrincipal : Axis → Node → Bool
  | .attribute, .attribute _ _ => true
  | .attribute, .tree _ => false
  | _, .tree _ => true
  | _, .attribute _ _ => false

/-- What a step reaches from a node, from the nearest on. -/
def reach (d : Document) (axis : Axis) (test : NodeTest) (n : Node) : List Node :=
  (axis.nodes d n).filter fun m => axis.isPrincipal m && test.passes d m

inductive Value where
  | nodes (list : List Node)
  | text (content : Text)
  /-- A whole number, or no number. -/
  | number (n : Option Int)
  | truth (b : Bool)
  deriving DecidableEq, Repr

namespace Value

def toTruth : Value → Bool
  | .nodes list => !list.isEmpty
  | .text content => !content.isEmpty
  | .number n => n ≠ none && n ≠ some 0
  | .truth b => b

/-- The text of a value; of several nodes it is that of the first. -/
def toText (d : Document) : Value → Text
  | .nodes list =>
      match d.first? list with
      | some n => d.stringValue n
      | none => []
  | .text content => content
  | .number (some n) => (if n < 0 then ['-'] else []) ++ Nat.toDigits 10 n.natAbs
  | .number none => "NaN".toList
  | .truth b => if b then "true".toList else "false".toList

def toNumber : Value → Option Int
  | .number n => n
  | .truth b => some (if b then 1 else 0)
  | _ => none

/-- As a predicate, a number stands for the node at this position. -/
def accepts (position : Nat) : Value → Bool
  | .number n => n = some (position : Int)
  | v => v.toTruth

/-- Nodes equal a value if one of them does. -/
def equals (d : Document) : Value → Value → Bool
  | .nodes list, .nodes list' =>
      list.any fun n => list'.any fun n' => d.stringValue n = d.stringValue n'
  | .nodes list, .text content => list.any fun n => d.stringValue n = content
  | .text content, .nodes list => list.any fun n => d.stringValue n = content
  | .text content, .text content' => content = content'
  | .truth b, v => b = v.toTruth
  | v, .truth b => b = v.toTruth
  | v, v' => v.toNumber ≠ none && v.toNumber = v'.toNumber

end Value

/-- White space around and inside of a text, as one space between two words. -/
def collapseSpace (t : Text) : Text :=
  let isSpace : Char → Bool := fun c => c ∈ [' ', '\t', '\n', '\r']
  let words := (t.splitBy fun c c' => isSpace c = isSpace c').filter fun run => !run.any isSpace
  (words.intersperse [' ']).flatten

def CoreFunction.apply (d : Document) (n : Node) : CoreFunction → List Value → Value
  | .concat, values => .text (values.flatMap (Value.toText d))
  | .contains, [v, v'] => .truth (v'.toText d <:+: v.toText d)
  | .count, [.nodes list] => .number (some list.eraseDups.length)
  | .false, [] => .truth Bool.false
  | .localName, [] => .text (d.nameOf n).localPart
  | .name, [] => .text (d.nameOf n).written
  | .namespaceUri, [] => .text (d.nameOf n).uri
  | .normalizeSpace, [v] => .text (collapseSpace (v.toText d))
  | .not, [v] => .truth (!v.toTruth)
  | .startsWith, [v, v'] => .truth (v'.toText d <+: v.toText d)
  | .stringLength, [v] => .number (some (v.toText d).length)
  | .substring, [v, .number (some k)] => .text ((v.toText d).drop (k - 1).toNat)
  | .true, [] => .truth Bool.true
  | _, _ => .text []

def Operator.apply (d : Document) : Operator → Value → Value → Value
  | .or, v, v' => .truth (v.toTruth || v'.toTruth)
  | .and, v, v' => .truth (v.toTruth && v'.toTruth)
  | .equal, v, v' => .truth (v.equals d v')
  | .atMost, v, v' => .truth (Option.any id (Option.map₂ (· ≤ ·) v.toNumber v'.toNumber))
  | .atLeast, v, v' => .truth (Option.any id (Option.map₂ (· ≥ ·) v.toNumber v'.toNumber))
  | .plus, v, v' => .number (Option.map₂ (· + ·) v.toNumber v'.toNumber)
  | .minus, v, v' => .number (Option.map₂ (· - ·) v.toNumber v'.toNumber)
  | .modulo, v, v' =>
      .number ((v'.toNumber.filter (· ≠ 0)).bind fun k => v.toNumber.map (·.tmod k))
  | .union, .nodes list, .nodes list' => .nodes (list ++ list')
  | .union, _, _ => .text []

mutual

/-- The nodes that a path leads to, in one group for each node that its last step was taken from. -/
def LocationPath.groups (d : Document) (n : Node) : LocationPath → List (List Node)
  | .here => [[n]]
  | .step axis test => [reach d axis test n]
  | .next path axis test => (path.groups d n).flatten.map (reach d axis test)
  | .filter path predicate =>
      (path.groups d n).map fun group =>
        (group.zipIdx.filter fun m => (predicate.value d m.1).accepts (m.2 + 1)).map Prod.fst

/-- The value of an expression at a node. -/
def Expr.value (d : Document) (n : Node) : Expr → Value
  | .path path => .nodes (path.groups d n).flatten
  | .literal _ content => .text content
  | .number k => .number (some k)
  | .call function arguments => function.apply d n (valuesOf d n arguments)
  | .binary operator left right => operator.apply d (left.value d n) (right.value d n)
  | .group inner => inner.value d n
  | .nothing => .text []

def valuesOf (d : Document) (n : Node) : List Expr → List Value
  | [] => []
  | argument :: arguments => argument.value d n :: valuesOf d n arguments

end

/-- The nodes that a path leads to from a node. -/
def LocationPath.nodes (d : Document) (n : Node) (path : LocationPath) : List Node :=
  (path.groups d n).flatten

/-- The condition is true of the node. -/
def Expr.holds (d : Document) (n : Node) (e : Expr) : Bool :=
  (e.value d n).toTruth

/-- The nodes that the expression selects from a node. -/
def Expr.selected (d : Document) (n : Node) (e : Expr) : List Node :=
  match e.value d n with
  | .nodes list => list
  | _ => []

end XPath

end SelectorXPath
