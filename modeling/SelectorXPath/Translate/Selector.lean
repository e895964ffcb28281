import SelectorXPath.AnPlusB
import SelectorXPath.Namespace.Registry
import SelectorXPath.Selector.Basic
import SelectorXPath.XPath.Vocabulary

/-!
# Selectors as XPath

A chain of compounds is translated in two ways. As a *path* it starts at the compound on the left
and leads to the elements that it selects; each combinator is a step, and each simple selector that
restricts anything is a predicate. Inside `:not()` there is no place to start from: there the chain
becomes *conditions* on the element that the compound on the right has to fit, and each combinator
leads back to the left along the reverse axis.

Names, attribute tests and positions become conditions in either translation, and come first. The
first fault in the order of the source is the one that is reported.
-/

namespace SelectorXPath

open SelectorXPath.Text SelectorXPath.XPath

namespace Translate

/-! ### Names of elements

A name without qualifier is compared as it is written in the document, unless there is a default
namespace; any other name is compared by its local part and its namespace. -/

def typeConditions (r : Resolver) (name : Text) : Qualifier → Except SelectorError (List Expr)
  | .absent =>
    match r.default? with
    | some uri =>
      if uri = [] then .ok [.nameIs name] else .ok [.localNameIs name, .namespaceIs uri]
    | none => .ok [.nameIs name]
  | .any => .ok [.localNameIs name]
  | .noNamespace => .ok [.localNameIs name, .namespaceIs []]
  | .named key =>
    match r.namespaceOf key with
    | .ok uri => .ok [.localNameIs name, .namespaceIs uri]
    | .error e => .error e

def universalConditions (r : Resolver) : Qualifier → Except SelectorError (List Expr)
  | .absent => .ok []
  | .any => .ok []
  | .noNamespace => .ok [.namespaceIs []]
  | .named key =>
    match r.namespaceOf key with
    | .ok uri => .ok [.namespaceIs uri]
    | .error e => .error e

/-! ### Attributes

An attribute test becomes the path of the attributes it speaks of, and a comparison of their
values. -/

def plainAttribute (name : Text) : LocationPath :=
  if isBareName name then .attributeNamed name else .attributesWith (.nameIs name)

def attributePath (r : Resolver) (name : Text) : Qualifier → Except SelectorError LocationPath
  | .absent => .ok (plainAttribute name)
  | .noNamespace => .ok (plainAttribute name)
  | .any => .ok (.attributesWith (.localNameIs name))
  | .named key =>
    match r.namespaceOf key with
    | .ok uri => .ok (.attributesWith (Expr.allOf [.localNameIs name, .namespaceIs uri]))
    | .error e => .error e

/-- The text of a node ends with a value that is not empty. The end is cut off by its length, since
XPath has no function that looks at the end of a text. -/
def endsWith (node : Expr) (value : Text) : Expr :=
  let length : Expr := .call .stringLength [node]
  let before := value.length - 1
  let start := if before = 0 then length else .binary .minus length (.number before)
  .equals (.call .substring [node, start]) (quote value)

/-- The condition that a comparison puts on the text of a node. Nothing has an empty word or an
empty part, and a value with space in it is no word. -/
def comparisonCondition (node : Expr) : Comparison → Expr
  | ⟨.equals, value⟩ => .equals node (quote value)
  | ⟨.includes, value⟩ =>
    if value = [] ∨ value.any isSpace then .never else .hasWord node value
  | ⟨.dashMatch, value⟩ =>
    .group (Expr.anyOf
      [.equals node (quote value), .call .startsWith [node, quote (value ++ ['-'])]])
  | ⟨.beginning, value⟩ =>
    if value = [] then .never else .call .startsWith [node, quote value]
  | ⟨.ending, value⟩ => if value = [] then .never else endsWith node value
  | ⟨.inside, value⟩ => if value = [] then .never else .call .contains [node, quote value]

def attributeCondition (r : Resolver) (test : AttributeTest) : Except SelectorError Expr :=
  match attributePath r test.name test.qualifier with
  | .error e => .error e
  | .ok path =>
    match test.comparison with
    | none => .ok (.path path)
    | some comparison => .ok (comparisonCondition (.path path) comparison)

/-! ### Positions

An element has position `n + 1` when `n` siblings stand in front of it. XPath counts those
siblings, so the positions `a * k + b` become a condition on their number and on `b - 1`. -/

/-- The number of nodes on a path less the number `k`, as one operand. -/
def countLess (siblings : LocationPath) (k : Int) : Expr :=
  let count : Expr := .call .count [.path siblings]
  if k = 0 then count
  else if 0 < k then .group (.binary .minus count (.number k.toNat))
  else .group (.binary .plus count (.number (-k).toNat))

def isMultiple (e : Expr) (divisor : Nat) : Expr :=
  .binary .equal (.binary .modulo e (.number divisor)) (.number 0)

/-- Conditions under which an element with these siblings in front has one of the positions. Every
position meets an empty list. -/
def positionConditions (siblings : LocationPath) (positions : AnPlusB) : List Expr :=
  let count : Expr := .call .count [.path siblings]
  let k := positions.b - 1
  if positions.a = 0 then
    if k < 0 then [.call .false []] else [.binary .equal count (.number k.toNat)]
  else if 0 < positions.a then
    (if 0 < k then [.binary .atLeast count (.number k.toNat)] else []) ++
      (if positions.a = 1 then [] else [isMultiple (countLess siblings k) positions.a.toNat])
  else if k < 0 then [.call .false []]
  else
    .binary .atMost count (.number k.toNat) ::
      (if positions.a = -1 then []
      else [isMultiple (.group (.binary .minus (.number k.toNat) count)) (-positions.a).toNat])

end Translate

/-! ### Selectors -/

/-- Where a selector looks for elements, as seen from the context node. -/
inductive Scope where
  | descendants
  | descendantsOrSelf
  | children
  deriving DecidableEq, Repr

def Scope.axis : Scope → Axis
  | .descendants => .descendant
  | .descendantsOrSelf => .descendantOrSelf
  | .children => .child

namespace Translate

/-- The step of a combinator towards the right. -/
def forward (path : LocationPath) : Combinator → LocationPath
  | .descendant => .next path .descendant .any
  | .child => .next path .child .any
  | .adjacent => .filter (.next path .followingSibling .any) (.number 1)
  | .sibling => .next path .followingSibling .any

/-- The step of a combinator towards the left. -/
def backward : Combinator → LocationPath
  | .descendant => .elements .ancestor
  | .child => .elements .parent
  | .adjacent => .filter (.elements .precedingSibling) (.number 1)
  | .sibling => .elements .precedingSibling

/-- Narrows a path by the conditions of one part of a compound after the other. -/
def narrow (path : LocationPath) (conditions : List (List Expr)) : LocationPath :=
  conditions.foldl LocationPath.restrict path

/-- What a compound knows that its parts may ask for. -/
structure Surroundings where
  /-- Where the compound begins. -/
  offset : Nat
  /-- The type selector that it begins with. -/
  type? : Option (Text × Qualifier)

def Surroundings.of (compound : Compound) : Surroundings :=
  ⟨compound.offset, compound.typeSelector?⟩

/-- Conditions under which a sibling is of the type that the compound names. `asking` is the
pseudo-class that needs to know, and which is at fault if no type is named. -/
def siblingConditions (r : Resolver) (around : Surroundings) (asking : Text) :
    Except SelectorError (List Expr) :=
  match around.type? with
  | some (name, qualifier) => typeConditions r name qualifier
  | none =>
    .error (.grammatical
      ⟨around.offset, .supported (asking ++ " without a type selector".toList)⟩)

def siblingsOfType (r : Resolver) (around : Surroundings) (asking : Text) (axis : Axis) :
    Except SelectorError LocationPath := do
  let conditions ← siblingConditions r around asking
  return (LocationPath.elements axis).restrict conditions

def noneOf (path : LocationPath) : Expr :=
  .negation (.path path)

def pseudoConditions (r : Resolver) (around : Surroundings) (pseudoClass : PseudoClass) :
    Except SelectorError (List Expr) :=
  let asking := ':' :: pseudoClass.name
  match pseudoClass with
  | .firstChild => .ok [noneOf (.elements .precedingSibling)]
  | .lastChild => .ok [noneOf (.elements .followingSibling)]
  | .onlyChild =>
    .ok [noneOf (.elements .precedingSibling), noneOf (.elements .followingSibling)]
  | .firstOfType => do
    let before ← siblingsOfType r around asking .precedingSibling
    return [noneOf before]
  | .lastOfType => do
    let after ← siblingsOfType r around asking .followingSibling
    return [noneOf after]
  | .onlyOfType => do
    let before ← siblingsOfType r around asking .precedingSibling
    let after ← siblingsOfType r around asking .followingSibling
    return [noneOf before, noneOf after]
  | .empty => .ok [noneOf (.elements .child), noneOf (.step .child .text)]
  | .root => .ok [noneOf (.elements .parent)]
  | .checked => .ok [.path (.attributeNamed "checked".toList)]
  | .disabled => .ok [.path (.attributeNamed "disabled".toList)]
  | .enabled => .ok [noneOf (.attributeNamed "disabled".toList)]

def countedSiblings (r : Resolver) (around : Surroundings) (counting : Counting) :
    Except SelectorError LocationPath :=
  let asking := ':' :: (FunctionalClass.nth counting).name ++ ['(', ')']
  match counting with
  | .child => .ok (.elements .precedingSibling)
  | .lastChild => .ok (.elements .followingSibling)
  | .ofType => siblingsOfType r around asking .precedingSibling
  | .lastOfType => siblingsOfType r around asking .followingSibling

/-- The condition that `:has()` puts on an element: one of the paths leads somewhere. -/
def leadsSomewhere : List LocationPath → Expr
  | [path] => .path path
  | paths => .group (Expr.unionOf (paths.map .path))

mutual

/-- Conditions of a simple selector, all of which have to hold. -/
def simpleConditions (r : Resolver) (around : Surroundings) :
    Simple → Except SelectorError (List Expr)
  | .type name qualifier => typeConditions r name qualifier
  | .universal qualifier => universalConditions r qualifier
  | .class name => .ok [.hasWord (.path (.attributeNamed "class".toList)) name]
  | .id name => .ok [.equals (.path (.attributeNamed "id".toList)) (quote name)]
  | .attribute test => do
    let condition ← attributeCondition r test
    return [condition]
  | .pseudo pseudoClass => pseudoConditions r around pseudoClass
  | .nth counting positions => do
    let siblings ← countedSiblings r around counting
    return positionConditions siblings positions
  | .not list => do
    let alternatives ← listConditions r list
    return [.negation (Expr.anyOf alternatives)]
  | .has list => do
    let paths ← listPaths r .descendant list
    return [leadsSomewhere paths]
  | .contains text => .ok [.call .contains [.path .here, quote text]]

/-- Conditions of several simple selectors, one list for each of them. -/
def partsConditions (r : Resolver) (around : Surroundings) :
    List Simple → Except SelectorError (List (List Expr))
  | [] => .ok []
  | part :: parts => do
    let conditions ← simpleConditions r around part
    let more ← partsConditions r around parts
    return conditions :: more

/-- Conditions of a compound, one list for each of its parts. -/
def compoundConditions (r : Resolver) :
    Compound → Except SelectorError (List (List Expr))
  | ⟨offset, parts⟩ => partsConditions r (.of ⟨offset, parts⟩) parts

/-- The path to the elements that a chain selects, with `axis` as the first step. -/
def complexPath (r : Resolver) (axis : Axis) : Complex → Except SelectorError LocationPath
  | .single compound => do
    let conditions ← compoundConditions r compound
    return narrow (.elements axis) conditions
  | .joined left combinator right => do
    let path ← complexPath r axis left
    let conditions ← compoundConditions r right
    return narrow (forward path combinator) conditions

/-- Conditions under which a chain selects the context node. -/
def complexConditions (r : Resolver) : Complex → Except SelectorError (List Expr)
  | .single compound => do
    let conditions ← compoundConditions r compound
    return conditions.flatten
  | .joined left combinator right => do
    let before ← complexConditions r left
    let conditions ← compoundConditions r right
    return conditions.flatten ++ [.path ((backward combinator).restrict before)]

def listPaths (r : Resolver) (axis : Axis) :
    List Complex → Except SelectorError (List LocationPath)
  | [] => .ok []
  | selector :: list => do
    let path ← complexPath r axis selector
    let paths ← listPaths r axis list
    return path :: paths

/-- For each selector of a list, the condition under which it selects the context node. -/
def listConditions (r : Resolver) : List Complex → Except SelectorError (List Expr)
  | [] => .ok []
  | selector :: list => do
    let conditions ← complexConditions r selector
    let more ← listConditions r list
    return Expr.allOf conditions :: more

end

/-- The expression that selects what one of the selectors selects. -/
def listExpr (r : Resolver) (scope : Scope) (list : SelectorList) : Except SelectorError Expr := do
  let paths ← listPaths r scope.axis list
  return Expr.unionOf (paths.map .path)

/-- That expression, written down. -/
def listText (r : Resolver) (scope : Scope) (list : SelectorList) : Except SelectorError Text :=
  (listExpr r scope list).map Expr.text

end Translate

end SelectorXPath
