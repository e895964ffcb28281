import SelectorXPath.Text.Basic
import SelectorXPath.Token.Basic

/-!
# Modes

What a character means depends on where it stands: a bracket inside a string is text, and a digit
begins a number only inside brackets or parentheses. Each mode knows how the next token is
recognised, which token ends the mode and which tokens open another one inside it.

A recognised token is given by its kind and its length in characters. The length is never zero and
never more than what is left of the source.
-/

namespace SelectorXPath

open SelectorXPath.Text

/-- The places that read characters differently. -/
inductive Mode where
  /-- Outside every bracket, parenthesis, string and comment. -/
  | selector
  | string (mark : QuoteMark)
  /-- Between brackets. -/
  | attribute
  /-- Between the parentheses of a pseudo-class. -/
  | argument
  | comment
  deriving DecidableEq, Repr

namespace Mode

open Token

def description : Mode → String
  | .selector => "selector"
  | .string .single => "single-quoted string"
  | .string .double => "double-quoted string"
  | .attribute => "attribute selector"
  | .argument => "pseudo-class argument"
  | .comment => "comment"

/-- A token of `lead` characters and `length` more, which has to have more of them. -/
def withLead (kind : Kind) (lead length : Nat) : Option (Kind × Nat) :=
  if length = 0 then none else some (kind, lead + length)

def nonempty (kind : Kind) (length : Nat) : Option (Kind × Nat) :=
  withLead kind 0 length

def trivia? (t : Text) : Option (Kind × Nat) :=
  match blankLength t with
  | n + 1 => some (.whitespace, n + 1)
  | 0 =>
    match t with
    | '/' :: '*' :: _ => some (.commentStart, 2)
    | _ => none

def stringStart? : Text → Option (Kind × Nat)
  | '"' :: _ => some (.stringStart .double, 1)
  | '\'' :: _ => some (.stringStart .single, 1)
  | _ => none

/-- Names with the character that says what they name, the signs of the grammar, and identifiers.
-/
def selectorSign? : Text → Option (Kind × Nat)
  | ':' :: ':' :: t => withLead .pseudoElement 2 (identifierLength t)
  | ':' :: t => withLead .pseudoClass 1 (identifierLength t)
  | '.' :: t => withLead .classSelector 1 (identifierLength t)
  | '#' :: t => withLead .idSelector 1 (nameLength t)
  | '*' :: _ => some (.universal, 1)
  | '|' :: _ => some (.namespaceSeparator, 1)
  | '>' :: _ => some (.combinator, 1)
  | '+' :: _ => some (.combinator, 1)
  | '~' :: _ => some (.combinator, 1)
  | ',' :: _ => some (.separator, 1)
  | '[' :: _ => some (.attributeStart, 1)
  | '(' :: _ => some (.parenthesesStart, 1)
  | ')' :: _ => some (.parenthesesEnd, 1)
  | ']' :: _ => some (.attributeEnd, 1)
  | t => nonempty .identifier (identifierLength t)

def selectorToken? (t : Text) : Option (Kind × Nat) :=
  trivia? t <|> selectorSign? t

/-- The next token of a string: the closing mark, a backslash with the mark or with another
backslash, or the longest run of other characters. A backslash protects nothing else. -/
def stringToken? (mark : QuoteMark) : Text → Option (Kind × Nat)
  | [] => none
  | c :: t =>
    if c = mark.char then some (.stringEnd mark, 1)
    else if c = '\\' then
      match t with
      | d :: _ => if d = mark.char ∨ d = '\\' then some (.escapedChar, 2) else none
      | [] => none
    else some (.stringChars, 1 + (t.takeWhile fun d => d ≠ '\\' ∧ d ≠ mark.char).length)

/-- The operators between the name and the value of an attribute, and the signs of its name. An
operator that begins with the sign of a name wins over the sign. -/
def attributeSign? : Text → Option (Kind × Nat)
  | ']' :: _ => some (.attributeEnd, 1)
  | '~' :: '=' :: _ => some (.attributeOperator, 2)
  | '|' :: '=' :: _ => some (.attributeOperator, 2)
  | '^' :: '=' :: _ => some (.attributeOperator, 2)
  | '$' :: '=' :: _ => some (.attributeOperator, 2)
  | '*' :: '=' :: _ => some (.attributeOperator, 2)
  | '=' :: _ => some (.attributeOperator, 1)
  | '*' :: _ => some (.universal, 1)
  | '|' :: _ => some (.namespaceSeparator, 1)
  | t => nonempty .identifier (identifierLength t) <|> nonempty .number (numberLength t)

def attributeToken? (t : Text) : Option (Kind × Nat) :=
  trivia? t <|> stringStart? t <|> attributeSign? t

def argumentToken? (t : Text) : Option (Kind × Nat) :=
  stringStart? t <|> nonempty .number (numberLength t) <|> selectorToken? t

/-- Number of characters in front of the mark that closes a comment. -/
def commentLength : Text → Nat
  | [] => 0
  | '*' :: '/' :: _ => 0
  | _ :: t => commentLength t + 1

/-- The next token of a comment: the closing mark, or all the text in front of it. -/
def commentToken? : Text → Option (Kind × Nat)
  | '*' :: '/' :: _ => some (.commentEnd, 2)
  | t => nonempty .commentText (commentLength t)

/-- Kind and length of the token at the start of a text. -/
def recognize? : Mode → Text → Option (Kind × Nat)
  | .selector, t => selectorToken? t
  | .string mark, t => stringToken? mark t
  | .attribute, t => attributeToken? t
  | .argument, t => argumentToken? t
  | .comment, t => commentToken? t

/-- The token at a byte offset of a text, if the mode has one there. -/
def tokenAt? (mode : Mode) (source : Text) (offset : Nat) : Option Token := do
  let rest ← fromByte? source offset
  let (kind, length) ← mode.recognize? rest
  return ⟨kind, rest.take length, offset⟩

/-- Whether a token of this kind ends the mode. Closing delimiters outside every bracket count as
ends too, though there is nothing that they could end. -/
def isClosedBy : Mode → Kind → Bool
  | .string .single, .stringEnd .single => true
  | .string .double, .stringEnd .double => true
  | .attribute, .attributeEnd => true
  | .argument, .parenthesesEnd => true
  | .comment, .commentEnd => true
  | .selector, .parenthesesEnd => true
  | .selector, .attributeEnd => true
  | _, _ => false

def opened? : Mode → Kind → Option Mode
  | .string _, _ => none
  | .comment, _ => none
  | _, .stringStart mark => some (.string mark)
  | _, .commentStart => some .comment
  | .selector, .attributeStart => some .attribute
  | .argument, .attributeStart => some .attribute
  | .selector, .parenthesesStart => some .argument
  | .argument, .parenthesesStart => some .argument
  | _, _ => none

end Mode

end SelectorXPath
