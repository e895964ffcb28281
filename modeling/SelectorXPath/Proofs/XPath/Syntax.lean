import SelectorXPath.Proofs.XPath.Shape

/-! How XPath reads a text: first as lexemes, by the lexical rules of XPath 1.0, and then by its
grammar, one production after the other. Of both there is what expressions here can stand for.
Variables and names with a prefix are left out, as are the productions that only abbreviate paths
that no expression has. -/

namespace SelectorXPath.XPath

open SelectorXPath.Text

/-- Which characters names are made of. Of the characters of ASCII these are always the same. -/
structure NameClass where
  start : Char → Bool
  char : Char → Bool
  start_ascii : ∀ c, c.toNat < 128 → start c = (isAsciiLetter c || c = '_')
  char_ascii : ∀ c, c.toNat < 128 →
    char c = (isAsciiLetter c || c = '_' || isAsciiDigit c || c = '-' || c = '.')

/-- A text is a name without prefix. -/
def NameClass.isName (N : NameClass) : Text → Bool
  | [] => false
  | c :: t => N.start c && t.all N.char

inductive Lexeme where
  | leftParenthesis
  | rightParenthesis
  | leftBracket
  | rightBracket
  | dot
  | twoDots
  | atSign
  | comma
  | twoColons
  /-- The asterisk that is a node test. -/
  | star
  /-- A name that is a node test. -/
  | name (name : Text)
  | nodeType (name : Text)
  | function (name : Text)
  | axis (name : Text)
  | literal (mark : QuoteMark) (content : Text)
  | number (digits : Text)
  /-- A sign or a name between or in front of operands, the slash included. -/
  | operator (sign : Text)
  deriving DecidableEq, Repr

/-- Behind some lexemes an operator has to come, if anything that could be one. -/
def Lexeme.endsOperand : Lexeme → Bool
  | .atSign | .twoColons | .leftParenthesis | .leftBracket | .comma | .operator _ => false
  | _ => true

def operatorNames : List Text :=
  ["and".toList, "or".toList, "mod".toList, "div".toList]

def nodeTypes : List Text :=
  ["comment".toList, "text".toList, "processing-instruction".toList, "node".toList]

def isXmlSpace (c : Char) : Bool :=
  c = ' ' || c = '\t' || c = '\n' || c = '\r'

/-- What a name is. Behind an operand it is an operator; else the next characters tell. -/
def nameLexeme? (operand : Bool) (name rest : Text) : Option Lexeme :=
  if operand then
    if name ∈ operatorNames then some (.operator name) else none
  else
    match rest.dropWhile isXmlSpace with
    | '(' :: _ => some (if name ∈ nodeTypes then .nodeType name else .function name)
    | ':' :: ':' :: _ => some (.axis name)
    | _ => some (.name name)

/-- The sign with one more character, if that one follows. -/
def longer (sign : Char) (next : Char) (t : Text) : Lexeme × Nat :=
  if t.head? = some next then (.operator [sign, next], 2) else (.operator [sign], 1)

def literal? (mark : QuoteMark) (t : Text) : Option (Lexeme × Nat) :=
  if mark.char ∈ t then
    let content := t.takeWhile (· ≠ mark.char)
    some (.literal mark content, content.length + 2)
  else none

/-- Length of a number, which may have a point. -/
def decimalLength (t : Text) : Nat :=
  let whole := digitsLength t
  match t.drop whole with
  | '.' :: more => whole + 1 + digitsLength more
  | _ => whole

/-- The longest lexeme at the start of a text and its length. `operand` says whether an operand
ends in front of it. -/
def lexeme? (N : NameClass) (operand : Bool) : Text → Option (Lexeme × Nat)
  | [] => none
  | '(' :: _ => some (.leftParenthesis, 1)
  | ')' :: _ => some (.rightParenthesis, 1)
  | '[' :: _ => some (.leftBracket, 1)
  | ']' :: _ => some (.rightBracket, 1)
  | '@' :: _ => some (.atSign, 1)
  | ',' :: _ => some (.comma, 1)
  | ':' :: t => if t.head? = some ':' then some (.twoColons, 2) else none
  | '\'' :: t => literal? .single t
  | '"' :: t => literal? .double t
  | '!' :: t => if t.head? = some '=' then some (.operator ['!', '='], 2) else none
  | '/' :: t => some (longer '/' '/' t)
  | '<' :: t => some (longer '<' '=' t)
  | '>' :: t => some (longer '>' '=' t)
  | '=' :: _ => some (.operator ['='], 1)
  | '+' :: _ => some (.operator ['+'], 1)
  | '-' :: _ => some (.operator ['-'], 1)
  | '|' :: _ => some (.operator ['|'], 1)
  | '*' :: _ => if operand then some (.operator ['*'], 1) else some (.star, 1)
  | '.' :: t =>
      if t.head? = some '.' then some (.twoDots, 2)
      else if (t.head?.map isAsciiDigit).getD false then
        some (.number (('.' :: t).take (decimalLength ('.' :: t))), decimalLength ('.' :: t))
      else some (.dot, 1)
  | c :: t =>
      if isAsciiDigit c then
        some (.number ((c :: t).take (decimalLength (c :: t))), decimalLength (c :: t))
      else if N.start c then
        let name := c :: t.takeWhile N.char
        (nameLexeme? operand name (t.dropWhile N.char)).map (·, name.length)
      else none

/-- The lexemes of a text, if there are lexemes everywhere. -/
def lex (N : NameClass) (operand : Bool) : Text → Option (List Lexeme)
  | [] => some []
  | c :: t =>
      if isXmlSpace c then lex N operand t
      else
        match lexeme? N operand (c :: t) with
        | none => none
        | some (lexeme, n) => (lex N lexeme.endsOperand (t.drop (n - 1))).map (lexeme :: ·)
termination_by t => t.length
decreasing_by all_goals simp only [List.length_cons, List.length_drop]; omega

def Axis.name : Axis → Text
  | .child => "child".toList
  | .descendant => "descendant".toList
  | .descendantOrSelf => "descendant-or-self".toList
  | .parent => "parent".toList
  | .ancestor => "ancestor".toList
  | .followingSibling => "following-sibling".toList
  | .precedingSibling => "preceding-sibling".toList
  | .attribute => "attribute".toList

def Operator.sign : Operator → Text
  | .or => "or".toList
  | .and => "and".toList
  | .equal => "=".toList
  | .atMost => "<=".toList
  | .atLeast => ">=".toList
  | .plus => "+".toList
  | .minus => "-".toList
  | .modulo => "mod".toList
  | .union => "|".toList

/-- `AxisName '::' | '@'?` -/
inductive WritesAxis : Axis → List Lexeme → Prop where
  | named {axis : Axis} : WritesAxis axis [.axis axis.name, .twoColons]
  | attribute : WritesAxis (.attribute) [.atSign]
  | child : WritesAxis .child []

/-- `NameTest | NodeType '(' ')'` -/
inductive WritesTest : NodeTest → List Lexeme → Prop where
  | any : WritesTest .any [.star]
  | named {name : Text} : WritesTest (.named name) [.name name]
  | text : WritesTest .text [.nodeType "text".toList, .leftParenthesis, .rightParenthesis]

/-- What productions derive: operands of a level, paths, and the arguments of a call. -/
inductive Phrase where
  | operand (level : Nat) (e : Expr)
  | path (path : LocationPath)
  | arguments (arguments : List Expr)

/-- The productions. An operator takes an operand of its own level on the left and one of the next
level on the right. -/
inductive Written : Phrase → List Lexeme → Prop where
  | next {level : Nat} {e : Expr} {ts : List Lexeme} (hLevel : level < primaryLevel)
      (h : Written (.operand (level + 1) e) ts) : Written (.operand level e) ts
  | binary {operator : Operator} {left right : Expr} {ls rs : List Lexeme}
      (hLeft : Written (.operand operator.level left) ls)
      (hRight : Written (.operand (operator.level + 1) right) rs) :
      Written (.operand operator.level (.binary operator left right))
        (ls ++ .operator operator.sign :: rs)
  | path {path : LocationPath} {ts : List Lexeme} (h : Written (.path path) ts) :
      Written (.operand primaryLevel (.path path)) ts
  | literal {mark : QuoteMark} {content : Text} :
      Written (.operand primaryLevel (.literal mark content)) [.literal mark content]
  | number {digits : Text} (hDigits : digits.all isAsciiDigit = true) :
      Written (.operand primaryLevel (.number (Nat.ofDigitChars 10 digits 0))) [.number digits]
  | call {function : CoreFunction} {arguments : List Expr} {ts : List Lexeme}
      (h : Written (.arguments arguments) ts) :
      Written (.operand primaryLevel (.call function arguments))
        (.function function.spelling :: .leftParenthesis :: (ts ++ [.rightParenthesis]))
  | group {inner : Expr} {ts : List Lexeme} (h : Written (.operand 0 inner) ts) :
      Written (.operand primaryLevel (.group inner))
        (.leftParenthesis :: (ts ++ [.rightParenthesis]))
  | here : Written (.path .here) [.dot]
  | step {axis : Axis} {test : NodeTest} {xs ts : List Lexeme} (hAxis : WritesAxis axis xs)
      (hTest : WritesTest test ts) : Written (.path (.step axis test)) (xs ++ ts)
  | slash {path : LocationPath} {axis : Axis} {test : NodeTest} {ps xs ts : List Lexeme}
      (hPath : Written (.path path) ps) (hAxis : WritesAxis axis xs)
      (hTest : WritesTest test ts) :
      Written (.path (.next path axis test)) (ps ++ .operator ['/'] :: (xs ++ ts))
  | predicate {path : LocationPath} {predicate : Expr} {ps ts : List Lexeme}
      (hStep : path.isStep = true) (hPath : Written (.path path) ps)
      (h : Written (.operand 0 predicate) ts) :
      Written (.path (.filter path predicate)) (ps ++ .leftBracket :: (ts ++ [.rightBracket]))
  | noArguments : Written (.arguments []) []
  | oneArgument {argument : Expr} {ts : List Lexeme} (h : Written (.operand 0 argument) ts) :
      Written (.arguments [argument]) ts
  | moreArguments {argument next : Expr} {arguments : List Expr} {ts us : List Lexeme}
      (h : Written (.operand 0 argument) ts) (hMore : Written (.arguments (next :: arguments)) us) :
      Written (.arguments (argument :: next :: arguments)) (ts ++ .comma :: us)

/-- A text is read as an expression. -/
def NameClass.Reads (N : NameClass) (t : Text) (e : Expr) : Prop :=
  ∃ ts, lex N Bool.false t = some ts ∧ Written (.operand 0 e) ts

end SelectorXPath.XPath
