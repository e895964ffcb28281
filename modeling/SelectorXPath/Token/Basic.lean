import SelectorXPath.Text.Basic

/-!
# Tokens

A token is a piece of the source with the kind of thing it is. Nothing of the source is left out:
white space, comments and the parts of strings are tokens too.
-/

namespace SelectorXPath

namespace Token

inductive Kind where
  | whitespace
  | identifier
  | number
  /-- `*` -/
  | universal
  /-- The bar between a namespace and a local name. -/
  | namespaceSeparator
  /-- A dot and a name. -/
  | classSelector
  /-- A number sign and a name. -/
  | idSelector
  /-- A colon and a name. -/
  | pseudoClass
  /-- Two colons and a name. -/
  | pseudoElement
  /-- One of `>`, `+` and `~`; white space that combines is a token of its own kind. -/
  | combinator
  /-- A comma. -/
  | separator
  | attributeStart
  | attributeOperator
  | attributeEnd
  | parenthesesStart
  | parenthesesEnd
  | stringStart (mark : QuoteMark)
  | stringEnd (mark : QuoteMark)
  /-- Characters of a string that stand for themselves. -/
  | stringChars
  /-- A backslash and the character it protects inside a string. -/
  | escapedChar
  | commentStart
  | commentText
  | commentEnd
  /-- The end of the source. -/
  | eof
  deriving DecidableEq, Repr

def Kind.label : Kind → String
  | .whitespace => "Whitespace"
  | .identifier => "Identifier"
  | .number => "Number"
  | .universal => "Universal"
  | .namespaceSeparator => "NamespaceSeparator"
  | .classSelector => "ClassSelector"
  | .idSelector => "IdSelector"
  | .pseudoClass => "PseudoClass"
  | .pseudoElement => "PseudoElement"
  | .combinator => "Combinator"
  | .separator => "Separator"
  | .attributeStart => "AttributeStart"
  | .attributeOperator => "AttributeOperator"
  | .attributeEnd => "AttributeEnd"
  | .parenthesesStart => "ParenthesesStart"
  | .parenthesesEnd => "ParenthesesEnd"
  | .stringStart .single => "SingleQuoteStart"
  | .stringStart .double => "DoubleQuoteStart"
  | .stringEnd .single => "SingleQuoteEnd"
  | .stringEnd .double => "DoubleQuoteEnd"
  | .stringChars => "StringChars"
  | .escapedChar => "EscapedChar"
  | .commentStart => "CommentStart"
  | .commentText => "CommentText"
  | .commentEnd => "CommentEnd"
  | .eof => "Eof"

def Kind.isComment : Kind → Bool
  | .commentStart | .commentText | .commentEnd => true
  | _ => false

/-- Tokens without meaning of their own: white space and comments. -/
def Kind.isTrivia (kind : Kind) : Bool :=
  kind = .whitespace || kind.isComment

end Token

structure Token where
  kind : Token.Kind
  text : Text
  offset : Nat
  deriving DecidableEq, Repr

namespace Token

def byteLength (token : Token) : Nat :=
  token.text.byteLength

def stop (token : Token) : Nat :=
  token.offset + token.byteLength

end Token

end SelectorXPath
