import SelectorXPath.Token.Scan

/-!
# Errors

What can keep a selector from being compiled: its characters, its grammar, or a namespace prefix
that is bound to nothing. An error of the grammar says what it asked for where the tokens held
something else.
-/

namespace SelectorXPath

inductive Expected where
  | selector
  | elementName
  | attributeName
  /-- The value of an attribute, or the text of `:contains()`. -/
  | value
  /-- A closing delimiter. -/
  | delimiter (c : Char)
  | endOfInput
  | positions
  /-- The argument of the functional pseudo-class of this name. -/
  | argument (name : Text)
  /-- Something else than this selector, which has no translation. -/
  | supported (written : Text)
  /-- Fewer groups inside each other. -/
  | nesting (limit : Nat)
  /-- A type selector that stands in front of all others. -/
  | typeSelectorFirst
  deriving DecidableEq, Repr

def Expected.message : Expected → String
  | .selector => "a selector"
  | .elementName => "an element name or '*'"
  | .attributeName => "an attribute name"
  | .value => "an identifier or string"
  | .delimiter c => s!"'{c}'"
  | .endOfInput => "',' or end of input"
  | .positions => "an an+b expression"
  | .argument name => s!"an argument list for ':{String.ofList name}'"
  | .supported written =>
    s!"a supported selector, found unsupported '{String.ofList written}'"
  | .nesting limit => s!"at most {limit} nested selector groups"
  | .typeSelectorFirst => "type selector at the start of a compound selector"

structure SyntaxError where
  offset : Nat
  expected : Expected
  deriving DecidableEq, Repr

def SyntaxError.message (e : SyntaxError) : String :=
  s!"Syntax error at offset {e.offset}: expected {e.expected.message}"

/-- Why a selector has no translation. -/
inductive SelectorError where
  | lexical (e : LexError)
  | grammatical (e : SyntaxError)
  | unboundPrefix (name : Text)
  deriving DecidableEq, Repr

namespace SelectorError

def message : SelectorError → String
  | .lexical e => e.message
  | .grammatical e => e.message
  | .unboundPrefix name => s!"Unknown namespace prefix \"{String.ofList name}\""

/-- The byte offset of an error. A prefix without binding is not located. -/
def offset? : SelectorError → Option Nat
  | .lexical e => some e.offset
  | .grammatical e => some e.offset
  | .unboundPrefix _ => none

end SelectorError

end SelectorXPath
