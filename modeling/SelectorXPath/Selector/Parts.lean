import SelectorXPath.Error
import SelectorXPath.Selector.Basic

/-!
# Reading tokens, and the parts of a compound that hold no selectors

A parser reads some of the tokens in front of it. Whether it succeeds or not, the tokens it leaves
are known, since reading can be taken up again after an error. A failure also knows how many groups
it left open.

A parser is `Bounded` when what it leaves is always the end of what it was given: it cannot put
tokens back. Every parser of the grammar is, and this is what its loops end by.

The parts that hold no selectors are qualified names, attribute tests, strings and positions. White
space may stand between the parts of an attribute test and around the text of an argument, but not
between the parts of a name.
-/

namespace SelectorXPath

open SelectorXPath.Text

/-- How an attempt to read tokens ended, and the tokens it did not read. -/
inductive Outcome (α : Type) where
  | ok (value : α) (rest : List Token)
  /-- `groups` counts the groups that were open when reading failed. -/
  | error (fault : SyntaxError) (groups : Nat) (rest : List Token)

namespace Outcome

def rest {α : Type} : Outcome α → List Token
  | .ok _ rest => rest
  | .error _ _ rest => rest

def map {α β : Type} (f : α → β) : Outcome α → Outcome β
  | .ok value rest => .ok (f value) rest
  | .error fault groups rest => .error fault groups rest

/-- Goes on with the tokens that a success leaves. -/
def andThen {α β : Type} (o : Outcome α) (next : α → List Token → Outcome β) :
    Outcome β :=
  match o with
  | .ok value rest => next value rest
  | .error fault groups rest => .error fault groups rest

/-- Counts the group around an attempt that failed. -/
def inGroup {α : Type} : Outcome α → Outcome α
  | .ok value rest => .ok value rest
  | .error fault groups rest => .error fault (groups + 1) rest

@[simp] theorem rest_map {α β : Type} (f : α → β) (o : Outcome α) :
    (o.map f).rest = o.rest := by
  cases o <;> rfl

@[simp] theorem rest_inGroup {α : Type} (o : Outcome α) : o.inGroup.rest = o.rest := by
  cases o <;> rfl

/-- What is left gets shorter from step to step, whether the first step or the second one fails. -/
theorem rest_andThen {α β : Type} {o : Outcome α} {next : α → List Token → Outcome β}
    (hNext : ∀ value rest, (next value rest).rest <:+ rest) :
    (o.andThen next).rest <:+ o.rest := by
  cases o with
  | ok value rest => exact hNext value rest
  | error fault groups rest => exact List.suffix_refl _

/-- The rest that a success names is the rest of the outcome. -/
theorem suffix_of_eq_ok {α : Type} {o : Outcome α} {value : α} {rest tokens : List Token}
    (hOk : o = .ok value rest) (hSuffix : o.rest <:+ tokens) : rest <:+ tokens := by
  rw [hOk] at hSuffix
  exact hSuffix

end Outcome

abbrev Parser (α : Type) := List Token → Outcome α

namespace Parser

/-- The parser only ever drops tokens from the front. -/
def Bounded {α : Type} (p : Parser α) : Prop :=
  ∀ tokens, (p tokens).rest <:+ tokens

theorem Bounded.rest_of_ok {α : Type} {p : Parser α} (h : p.Bounded) {tokens rest : List Token}
    {value : α} (hOk : p tokens = .ok value rest) : rest <:+ tokens :=
  Outcome.suffix_of_eq_ok hOk (h tokens)

/-- A failure too leaves an end of the tokens, where reading can be taken up again. -/
theorem Bounded.rest_of_error {α : Type} {p : Parser α} (h : p.Bounded)
    {tokens rest : List Token} {fault : SyntaxError} {groups : Nat}
    (hError : p tokens = .error fault groups rest) : rest <:+ tokens := by
  simpa [hError, Outcome.rest] using h tokens

/-- The loops of the grammar count tokens, so that they need the bound as one on lengths. -/
theorem Bounded.length_le_of_ok {α : Type} {p : Parser α} (h : p.Bounded)
    {tokens rest : List Token} {value : α} (hOk : p tokens = .ok value rest) :
    rest.length ≤ tokens.length :=
  (h.rest_of_ok hOk).length_le

end Parser

/-! ### Parts of a compound -/

/-- What a parser knows beside the tokens: the byte offset at which they end, and how many groups
may lie inside each other. -/
structure Setting where
  stop : Nat
  limit : Nat

namespace Parser

/-- The kind of the next token, which is the end of the source when no token is left. -/
def nextKind : List Token → Token.Kind
  | [] => .eof
  | token :: _ => token.kind

def nextOffset (s : Setting) : List Token → Nat
  | [] => s.stop
  | token :: _ => token.offset

/-- Fails at the next token without reading it. -/
def fail {α : Type} (s : Setting) (expected : Expected) : Parser α :=
  fun tokens => .error ⟨nextOffset s tokens, expected⟩ 0 tokens

def dropBlank (tokens : List Token) : List Token :=
  tokens.dropWhile (fun token => token.kind = .whitespace)

def expect (s : Setting) (kind : Token.Kind) (delimiter : Char) : Parser Unit
  | [] => fail s (.delimiter delimiter) []
  | token :: tokens =>
    if token.kind = kind then .ok () tokens else fail s (.delimiter delimiter) (token :: tokens)

/-- The name that a token is: a text, or nothing where it is the asterisk. -/
def name? (token : Token) : Option (Option Text) :=
  match token.kind with
  | .identifier => some (some (unescape token.text))
  | .universal => some none
  | _ => none

def localName (s : Setting) (expected : Expected) : Parser (Option Text)
  | [] => fail s expected []
  | token :: tokens =>
    match name? token with
    | some name => .ok name tokens
    | none => fail s expected (token :: tokens)

def qualifierOf : Option Text → Qualifier
  | some name => .named name
  | none => .any

/-- Reads a name with or without qualifier, if one stands in front. -/
def qualifiedName (s : Setting) (expected : Expected) :
    Parser (Option (Qualifier × Option Text))
  | [] => .ok none []
  | token :: tokens =>
    match name? token with
    | some name =>
      if nextKind tokens = .namespaceSeparator then
        (localName s expected (tokens.drop 1)).map fun inner => some (qualifierOf name, inner)
      else .ok (some (.absent, name)) tokens
    | none =>
      if token.kind = .namespaceSeparator then
        (localName s expected tokens).map fun inner => some (.noNamespace, inner)
      else .ok none (token :: tokens)

/-- Reads the rest of a string, up to and including its closing mark. -/
def stringText (s : Setting) (mark : QuoteMark) : Parser Text
  | [] => fail s (.delimiter mark.char) []
  | token :: tokens =>
    match token.kind with
    | .stringChars => (stringText s mark tokens).map (token.text ++ ·)
    | .escapedChar => (stringText s mark tokens).map (token.text.drop 1 ++ ·)
    | kind =>
      if kind = .stringEnd mark then .ok [] tokens
      else .error ⟨token.offset, .delimiter mark.char⟩ 0 tokens

/-- Reads a text: a string, or an identifier or number without quotation marks. -/
def value (s : Setting) : Parser Text
  | [] => fail s .value []
  | token :: tokens =>
    match token.kind with
    | .identifier => .ok (unescape token.text) tokens
    | .number => .ok token.text tokens
    | .stringStart mark => stringText s mark tokens
    | _ => fail s .value (token :: tokens)

def comparison (s : Setting) : Parser (Option Comparison)
  | [] => .ok none []
  | token :: tokens =>
    if token.kind = .attributeOperator then
      match AttributeOperator.ofSymbol? token.text with
      | some operator =>
        (value s (dropBlank tokens)).andThen fun value rest =>
          .ok (some ⟨operator, value⟩) (dropBlank rest)
      | none => .error ⟨token.offset, .delimiter ']'⟩ 0 tokens
    else .ok none (token :: tokens)

/-- Reads an attribute test behind its opening bracket. -/
def attributeTest (s : Setting) : Parser AttributeTest := fun tokens =>
  (qualifiedName s .attributeName (dropBlank tokens)).andThen fun name rest =>
    match name with
    | some (qualifier, some name) =>
      (comparison s (dropBlank rest)).andThen fun comparison rest =>
        (expect s .attributeEnd ']' rest).map fun _ => ⟨name, qualifier, comparison⟩
    | _ => .error ⟨nextOffset s (dropBlank tokens), .attributeName⟩ 0 rest

/-- Joins the tokens of an `an+b` expression again, up to the closing parenthesis. -/
def positionsText (s : Setting) : Parser Text
  | [] => fail s .positions []
  | token :: tokens =>
    match token.kind with
    | .parenthesesEnd => .ok [] (token :: tokens)
    | .number | .identifier | .combinator | .whitespace =>
      (positionsText s tokens).map (token.text ++ ·)
    | _ => fail s .positions (token :: tokens)

/-- Reads positions and the closing parenthesis. `start` is the offset behind the opening one,
where an expression is reported that writes no positions. -/
def positions (s : Setting) (start : Nat) : Parser AnPlusB := fun tokens =>
  (positionsText s tokens).andThen fun text rest =>
    match AnPlusB.read? text with
    | some positions => .ok positions (rest.drop 1)
    | none => .error ⟨start, .positions⟩ 0 rest

def textArgument (s : Setting) : Parser Text := fun tokens =>
  (value s (dropBlank tokens)).andThen fun text rest =>
    (expect s .parenthesesEnd ')' (dropBlank rest)).map fun _ => text

theorem dropBlank_suffix (tokens : List Token) : dropBlank tokens <:+ tokens :=
  List.dropWhile_suffix _

theorem expect_bounded (s : Setting) (kind : Token.Kind) (delimiter : Char) :
    (expect s kind delimiter).Bounded := by
  intro tokens
  cases tokens with
  | nil => exact List.suffix_refl _
  | cons token tokens =>
    simp only [expect]
    split
    · exact List.suffix_cons _ _
    · exact List.suffix_refl _

theorem localName_bounded (s : Setting) (expected : Expected) :
    (localName s expected).Bounded := by
  intro tokens
  cases tokens with
  | nil => exact List.suffix_refl _
  | cons token tokens =>
    simp only [localName]
    split
    · exact List.suffix_cons _ _
    · exact List.suffix_refl _

theorem qualifiedName_bounded (s : Setting) (expected : Expected) :
    (qualifiedName s expected).Bounded := by
  intro tokens
  cases tokens with
  | nil => exact List.suffix_refl _
  | cons token tokens =>
    simp only [qualifiedName]
    split <;> split
    · rw [Outcome.rest_map]
      exact (localName_bounded s expected _).trans
        ((List.drop_suffix 1 tokens).trans (List.suffix_cons _ _))
    · exact List.suffix_cons _ _
    · rw [Outcome.rest_map]
      exact (localName_bounded s expected _).trans (List.suffix_cons _ _)
    · exact List.suffix_refl _

theorem stringText_bounded (s : Setting) (mark : QuoteMark) : (stringText s mark).Bounded := by
  intro tokens
  induction tokens with
  | nil => exact List.suffix_refl _
  | cons token tokens ih =>
    simp only [stringText]
    split
    · rw [Outcome.rest_map]; exact ih.trans (List.suffix_cons _ _)
    · rw [Outcome.rest_map]; exact ih.trans (List.suffix_cons _ _)
    · split <;> exact List.suffix_cons _ _

theorem value_bounded (s : Setting) : (value s).Bounded := by
  intro tokens
  cases tokens with
  | nil => exact List.suffix_refl _
  | cons token tokens =>
    simp only [value]
    split
    · exact List.suffix_cons _ _
    · exact List.suffix_cons _ _
    · exact (stringText_bounded s _ tokens).trans (List.suffix_cons _ _)
    · exact List.suffix_refl _

theorem comparison_bounded (s : Setting) : (comparison s).Bounded := by
  intro tokens
  cases tokens with
  | nil => exact List.suffix_refl _
  | cons token tokens =>
    simp only [comparison]
    split
    · split
      · refine (Outcome.rest_andThen fun _ rest => ?_).trans
          ((value_bounded s _).trans ((dropBlank_suffix _).trans (List.suffix_cons _ _)))
        exact dropBlank_suffix rest
      · exact List.suffix_cons _ _
    · exact List.suffix_refl _

theorem attributeTest_bounded (s : Setting) : (attributeTest s).Bounded := by
  intro tokens
  refine (Outcome.rest_andThen fun name rest => ?_).trans
    ((qualifiedName_bounded s _ _).trans (dropBlank_suffix tokens))
  split
  · refine (Outcome.rest_andThen fun _ rest => ?_).trans
      ((comparison_bounded s _).trans (dropBlank_suffix _))
    rw [Outcome.rest_map]
    exact expect_bounded s _ _ rest
  · exact List.suffix_refl _

theorem positionsText_bounded (s : Setting) : (positionsText s).Bounded := by
  intro tokens
  induction tokens with
  | nil => exact List.suffix_refl _
  | cons token tokens ih =>
    simp only [positionsText]
    split
    · exact List.suffix_refl _
    · rw [Outcome.rest_map]; exact ih.trans (List.suffix_cons _ _)
    · rw [Outcome.rest_map]; exact ih.trans (List.suffix_cons _ _)
    · rw [Outcome.rest_map]; exact ih.trans (List.suffix_cons _ _)
    · rw [Outcome.rest_map]; exact ih.trans (List.suffix_cons _ _)
    · exact List.suffix_refl _

/-- Positions that cannot be understood are reported in front, but their tokens stay read. -/
theorem positions_bounded (s : Setting) (start : Nat) : (positions s start).Bounded := by
  intro tokens
  refine (Outcome.rest_andThen fun text rest => ?_).trans (positionsText_bounded s tokens)
  split
  · exact List.drop_suffix 1 rest
  · exact List.suffix_refl _

theorem textArgument_bounded (s : Setting) : (textArgument s).Bounded := by
  intro tokens
  refine (Outcome.rest_andThen fun text rest => ?_).trans
    ((value_bounded s _).trans (dropBlank_suffix tokens))
  rw [Outcome.rest_map]
  exact (expect_bounded s _ _ _).trans (dropBlank_suffix rest)

end Parser

end SelectorXPath
