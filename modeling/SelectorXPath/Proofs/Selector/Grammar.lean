import SelectorXPath.Selector.Parser

/-! The grammar of selectors as relations between tokens and what they write. White space is a
combinator between two compounds and has no meaning in the other places that allow it. The
relations below lists are given what parentheses may hold (`group`); tying that knot is left to
`WritesList`. Nothing here reads tokens from the left, and no rule looks at a token that it does
not take. -/

namespace SelectorXPath

mutual

/-- How many groups lie inside each other in a simple selector. -/
def Simple.nesting : Simple → Nat
  | .not list => listNesting list + 1
  | .has list => listNesting list + 1
  | _ => 0

def partsNesting : List Simple → Nat
  | [] => 0
  | part :: parts => max part.nesting (partsNesting parts)

def Compound.nesting : Compound → Nat
  | ⟨_, parts⟩ => partsNesting parts

def Complex.nesting : Complex → Nat
  | .single compound => compound.nesting
  | .joined left _ right => max left.nesting right.nesting

/-- How many groups lie inside each other in some selector of a list. -/
def listNesting : List Complex → Nat
  | [] => 0
  | selector :: list => max selector.nesting (listNesting list)

end

namespace Grammar

open SelectorXPath.Text

/-- White space, which may be missing. -/
def Blank (ts : List Token) : Prop :=
  ∀ t ∈ ts, t.kind = .whitespace

theorem Blank.nil : Blank [] := by simp [Blank]

/-- `ident | '*'` -/
inductive WritesLocalName : Token → Option Text → Prop where
  | name {t : Token} (h : t.kind = .identifier) : WritesLocalName t (some (unescape t.text))
  | every {t : Token} (h : t.kind = .universal) : WritesLocalName t none

/-- `(ident | '*')? '|' (ident | '*')`, or `ident` or `'*'` alone. -/
inductive WritesName : List Token → Qualifier × Option Text → Prop where
  | plain {t : Token} {name : Option Text} (h : WritesLocalName t name) :
      WritesName [t] (.absent, name)
  | unqualified {bar t : Token} {name : Option Text} (hBar : bar.kind = .namespaceSeparator)
      (h : WritesLocalName t name) : WritesName [bar, t] (.noNamespace, name)
  | everywhere {p bar t : Token} {name : Option Text} (hPrefix : WritesLocalName p none)
      (hBar : bar.kind = .namespaceSeparator) (h : WritesLocalName t name) :
      WritesName [p, bar, t] (.any, name)
  | qualified {p bar t : Token} {key : Text} {name : Option Text}
      (hPrefix : WritesLocalName p (some key)) (hBar : bar.kind = .namespaceSeparator)
      (h : WritesLocalName t name) : WritesName [p, bar, t] (.named key, name)

/-- The inside of a string and its closing mark. -/
inductive WritesString (mark : QuoteMark) : List Token → Text → Prop where
  | close {t : Token} (h : t.kind = .stringEnd mark) : WritesString mark [t] []
  | chars {t : Token} {ts : List Token} {text : Text} (h : t.kind = .stringChars)
      (rest : WritesString mark ts text) : WritesString mark (t :: ts) (t.text ++ text)
  | escaped {t : Token} {ts : List Token} {text : Text} (h : t.kind = .escapedChar)
      (rest : WritesString mark ts text) : WritesString mark (t :: ts) (t.text.drop 1 ++ text)

/-- `ident | number | string` -/
inductive WritesValue : List Token → Text → Prop where
  | identifier {t : Token} (h : t.kind = .identifier) : WritesValue [t] (unescape t.text)
  | number {t : Token} (h : t.kind = .number) : WritesValue [t] t.text
  | string {t : Token} {ts : List Token} {mark : QuoteMark} {text : Text}
      (h : t.kind = .stringStart mark) (rest : WritesString mark ts text) :
      WritesValue (t :: ts) text

/-- `(operator ws* value ws*)?` -/
inductive WritesComparison : List Token → Option Comparison → Prop where
  | absent : WritesComparison [] none
  | present {t : Token} {before ts after : List Token} {operator : AttributeOperator}
      {value : Text} (hKind : t.kind = .attributeOperator)
      (hSign : AttributeOperator.ofSymbol? t.text = some operator) (hBefore : Blank before)
      (h : WritesValue ts value) (hAfter : Blank after) :
      WritesComparison (t :: (before ++ ts ++ after)) (some ⟨operator, value⟩)

/-- `'[' ws* name ws* comparison ']'`, where the local part of the name is no asterisk. -/
inductive WritesAttribute : List Token → AttributeTest → Prop where
  | intro {start stop : Token} {before ts after cs : List Token} {name : Text}
      {qualifier : Qualifier} {comparison : Option Comparison}
      (hStart : start.kind = .attributeStart) (hBefore : Blank before)
      (hName : WritesName ts (qualifier, some name)) (hAfter : Blank after)
      (hComparison : WritesComparison cs comparison) (hStop : stop.kind = .attributeEnd) :
      WritesAttribute (start :: (before ++ ts ++ after ++ cs ++ [stop]))
        ⟨name, qualifier, comparison⟩

/-- Tokens whose joined text writes positions. -/
def WritesPositions (ts : List Token) (positions : AnPlusB) : Prop :=
  AnPlusB.read? (ts.flatMap Token.text) = some positions

/-- `ws* value ws*` -/
inductive WritesText : List Token → Text → Prop where
  | intro {before ts after : List Token} {text : Text} (hBefore : Blank before)
      (h : WritesValue ts text) (hAfter : Blank after) :
      WritesText (before ++ ts ++ after) text

/-- A token that names a functional pseudo-class, and the parentheses around its argument. -/
structure Encloses (t start stop : Token) (functional : FunctionalClass) : Prop where
  kind : t.kind = .pseudoClass
  name : Parser.pseudoName t = functional.name
  start : start.kind = .parenthesesStart
  stop : stop.kind = .parenthesesEnd

section

variable (group : List Token → SelectorList → Prop)

/-- One class, id, attribute or pseudo-class. -/
inductive WritesPart : List Token → Simple → Prop where
  | className {t : Token} (h : t.kind = .classSelector) :
      WritesPart [t] (.class (unescape (t.text.drop 1)))
  | idName {t : Token} (h : t.kind = .idSelector) :
      WritesPart [t] (.id (unescape (t.text.drop 1)))
  | attributeTest {ts : List Token} {test : AttributeTest} (h : WritesAttribute ts test) :
      WritesPart ts (.attribute test)
  | pseudo {t : Token} {pseudoClass : PseudoClass} (hKind : t.kind = .pseudoClass)
      (hName : Parser.pseudoName t = pseudoClass.name) : WritesPart [t] (.pseudo pseudoClass)
  | nth {t start stop : Token} {ts : List Token} {counting : Counting} {positions : AnPlusB}
      (hEnclosed : Encloses t start stop (.nth counting)) (h : WritesPositions ts positions) :
      WritesPart (t :: start :: (ts ++ [stop])) (.nth counting positions)
  | not {t start stop : Token} {ts : List Token} {list : SelectorList}
      (hEnclosed : Encloses t start stop .not) (h : group ts list) :
      WritesPart (t :: start :: (ts ++ [stop])) (.not list)
  | has {t start stop : Token} {ts : List Token} {list : SelectorList}
      (hEnclosed : Encloses t start stop .has) (h : group ts list) :
      WritesPart (t :: start :: (ts ++ [stop])) (.has list)
  | contains {t start stop : Token} {ts : List Token} {text : Text}
      (hEnclosed : Encloses t start stop .contains) (h : WritesText ts text) :
      WritesPart (t :: start :: (ts ++ [stop])) (.contains text)

/-- Any number of parts, one behind the other. -/
inductive WritesParts : List Token → List Simple → Prop where
  | nil : WritesParts [] []
  | cons {ts more : List Token} {part : Simple} {parts : List Simple}
      (h : WritesPart group ts part) (rest : WritesParts more parts) :
      WritesParts (ts ++ more) (part :: parts)

def offsetOf : List Token → Nat
  | [] => 0
  | t :: _ => t.offset

/-- A name and any number of parts, or at least one part alone. A compound is located at its first
token. -/
inductive WritesCompound : List Token → Compound → Prop where
  | named {ts more : List Token} {name : Qualifier × Option Text} {parts : List Simple}
      (hName : WritesName ts name) (h : WritesParts group more parts) :
      WritesCompound (ts ++ more) ⟨offsetOf ts, Parser.Simple.ofName name :: parts⟩
  | unnamed {ts : List Token} {parts : List Simple} (h : WritesParts group ts parts)
      (hSome : parts ≠ []) : WritesCompound ts ⟨offsetOf ts, parts⟩

/-- `ws* combinator ws*`, or white space alone. -/
inductive WritesCombinator : List Token → Combinator → Prop where
  | blank {ts : List Token} (h : Blank ts) (hSome : ts ≠ []) : WritesCombinator ts .descendant
  | sign {t : Token} {before after : List Token} {combinator : Combinator}
      (hBefore : Blank before) (hKind : t.kind = .combinator)
      (hSign : Combinator.ofSymbol? t.text = some combinator) (hAfter : Blank after) :
      WritesCombinator (before ++ t :: after) combinator

/-- `compound (combinator compound)*` -/
inductive WritesComplex : List Token → Complex → Prop where
  | single {ts : List Token} {compound : Compound} (h : WritesCompound group ts compound) :
      WritesComplex ts (.single compound)
  | joined {ls ms rs : List Token} {left : Complex} {combinator : Combinator} {right : Compound}
      (hLeft : WritesComplex ls left) (hCombinator : WritesCombinator ms combinator)
      (hRight : WritesCompound group rs right) :
      WritesComplex (ls ++ (ms ++ rs)) (.joined left combinator right)

/-- `ws* selector ws* (',' ws* selector ws*)*` -/
inductive WritesAlternatives : List Token → SelectorList → Prop where
  | one {before ts after : List Token} {selector : Complex} (hBefore : Blank before)
      (h : WritesComplex group ts selector) (hAfter : Blank after) :
      WritesAlternatives (before ++ ts ++ after) [selector]
  | more {before ts after rest : List Token} {comma : Token} {selector : Complex}
      {list : SelectorList} (hBefore : Blank before) (h : WritesComplex group ts selector)
      (hAfter : Blank after) (hComma : comma.kind = .separator)
      (hRest : WritesAlternatives rest list) :
      WritesAlternatives (before ++ ts ++ after ++ comma :: rest) (selector :: list)

end

/-- Tokens that write a selector list, with selector lists in the parentheses of its groups. -/
inductive WritesList : List Token → SelectorList → Prop where
  | intro {ts : List Token} {list : SelectorList} (h : WritesAlternatives WritesList ts list) :
      WritesList ts list

/-- What parentheses may hold that have at most `allowance` groups inside each other, themselves
included. -/
def writesGroup : (allowance : Nat) → List Token → SelectorList → Prop
  | 0 => fun _ _ => False
  | allowance + 1 => WritesAlternatives (writesGroup allowance)

end Grammar

end SelectorXPath
