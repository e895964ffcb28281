import SelectorXPath.Proofs.Checked.Names
import SelectorXPath.Proofs.Checked.Positions
import SelectorXPath.Proofs.Checked.Reading
import SelectorXPath.Proofs.Token.Faults

/-!
# The parts of a compound, read at a cursor

Qualified names, attribute tests, strings and positions, with the text of a token cut behind the
sign that its kind begins with. The cut is made behind one byte, and it is made in tokens only that
begin with a character of that size.
-/

namespace SelectorXPath.Checked

open SelectorXPath.Text

/-- Reads white space as long as there is any, and says whether there was. -/
def blanks (tokens : List Token) : (turns : Nat) → Reading Bool
  | 0 => attempt none
  | turns + 1 => do
    let token ← peek tokens
    if token.kind = .whitespace then
      let _ ← advance tokens
      let _ ← blanks tokens turns
      return true
    else return false

/-- Reads white space, and says whether there was any. -/
def skipBlank (tokens : List Token) : Reading Bool :=
  blanks tokens tokens.length

def expect (tokens : List Token) (kind : Token.Kind) (delimiter : Char) : Reading Unit := do
  let token ← peek tokens
  if token.kind = kind then
    let _ ← advance tokens
    return ()
  else failHere tokens (.delimiter delimiter)

def name? (token : Token) : Checked (Option (Option Text)) :=
  match token.kind with
  | .identifier => (unescape token.text).map fun name => some (some name)
  | .universal => some (some none)
  | _ => some none

def localName (tokens : List Token) (expected : Expected) : Reading (Option Text) := do
  let token ← peek tokens
  let found ← attempt (name? token)
  match found with
  | some name =>
    let _ ← advance tokens
    return name
  | none => failHere tokens expected

def qualifiedName (tokens : List Token) (expected : Expected) :
    Reading (Option (Qualifier × Option Text)) := do
  let token ← peek tokens
  let found ← attempt (name? token)
  match found with
  | some name =>
    let _ ← advance tokens
    let bar ← peek tokens
    if bar.kind = .namespaceSeparator then
      let _ ← advance tokens
      let inner ← localName tokens expected
      return some (Parser.qualifierOf name, inner)
    else return some (.absent, name)
  | none =>
    if token.kind = .namespaceSeparator then
      let _ ← advance tokens
      let inner ← localName tokens expected
      return some (.noNamespace, inner)
    else return none

/-- Reads the rest of a string behind what has been read of it already. -/
def stringText (tokens : List Token) (mark : QuoteMark) : (turns : Nat) → Text → Reading Text
  | 0, _ => attempt none
  | turns + 1, done => do
    let token ← advance tokens
    match token.kind with
    | .stringChars => stringText tokens mark turns (done ++ token.text)
    | .escapedChar =>
      let text ← attempt (fromByte? token.text 1)
      stringText tokens mark turns (done ++ text)
    | kind =>
      if kind = .stringEnd mark then return done
      else throw ⟨token.offset, .delimiter mark.char⟩

def value (tokens : List Token) : Reading Text := do
  let token ← peek tokens
  match token.kind with
  | .identifier =>
    let token ← advance tokens
    attempt (unescape token.text)
  | .number =>
    let token ← advance tokens
    return token.text
  | .stringStart mark =>
    let _ ← advance tokens
    stringText tokens mark tokens.length []
  | _ => failHere tokens .value

def comparison (tokens : List Token) : Reading (Option Comparison) := do
  let token ← peek tokens
  if token.kind = .attributeOperator then
    let token ← advance tokens
    match AttributeOperator.ofSymbol? token.text with
    | some operator =>
      let _ ← skipBlank tokens
      let value ← value tokens
      let _ ← skipBlank tokens
      return some ⟨operator, value⟩
    | none => throw ⟨token.offset, .delimiter ']'⟩
  else return none

def attributeTest (tokens : List Token) : Reading AttributeTest := do
  let _ ← skipBlank tokens
  let start ← peek tokens
  let name ← qualifiedName tokens .attributeName
  match name with
  | some (qualifier, some name) =>
    let _ ← skipBlank tokens
    let comparison ← comparison tokens
    let _ ← expect tokens .attributeEnd ']'
    return ⟨name, qualifier, comparison⟩
  | _ => throw ⟨start.offset, .attributeName⟩

/-- Joins the tokens of an `an+b` expression to what has been joined already. -/
def positionsText (tokens : List Token) : (turns : Nat) → Text → Reading Text
  | 0, _ => attempt none
  | turns + 1, done => do
    let token ← peek tokens
    match token.kind with
    | .parenthesesEnd => return done
    | .number | .identifier | .combinator | .whitespace =>
      let _ ← advance tokens
      positionsText tokens turns (done ++ token.text)
    | _ => failHere tokens .positions

def positions (tokens : List Token) : Reading AnPlusB := do
  let parenthesis ← advance tokens
  let text ← positionsText tokens tokens.length []
  let found ← attempt (positionsOf text)
  match found with
  | some positions =>
    let _ ← advance tokens
    return positions
  | none => throw ⟨parenthesis.stop, .positions⟩

def textArgument (tokens : List Token) : Reading Text := do
  let _ ← advance tokens
  let _ ← skipBlank tokens
  let text ← value tokens
  let _ ← skipBlank tokens
  let _ ← expect tokens .parenthesesEnd ')'
  return text

/-- The kinds of token whose text is read from its second byte on. -/
def isCut : Token.Kind → Bool
  | .classSelector | .idSelector | .pseudoClass | .escapedChar => true
  | _ => false

/-- Tokens of these kinds begin with a character that takes one byte. -/
def Cuttable (tokens : List Token) : Prop :=
  ∀ token ∈ tokens, isCut token.kind = true →
    ∃ c text, token.text = c :: text ∧ c.utf8Size = 1

/-- They do if they begin with the signs of their kinds. -/
theorem cuttable_of_sign {tokens : List Token} (h : ∀ token ∈ tokens, token.kind.sign <+: token.text) :
    Cuttable tokens := by
  intro token hToken hCut
  obtain ⟨c, hSign, hSize⟩ : ∃ c, token.kind.sign = [c] ∧ c.utf8Size = 1 := by
    cases hKind : token.kind <;> rw [hKind] at hCut <;> cases hCut <;> exact ⟨_, rfl, rfl⟩
  obtain ⟨text, hText⟩ := h token hToken
  rw [hSign] at hText
  exact ⟨c, text, hText.symm, hSize⟩

/-- The text of a token of such a kind can be cut behind its first byte. -/
theorem Cuttable.fromByte? {tokens : List Token} {token : Token} (h : Cuttable tokens)
    (hToken : token ∈ tokens) (hCut : isCut token.kind = true) :
    fromByte? token.text 1 = some (token.text.drop 1) := by
  obtain ⟨c, text, hText, hSize⟩ := h token hToken hCut
  have hBehind := fromByte?_cons c text
  rw [hSize] at hBehind
  rw [hText]
  exact hBehind

section

variable {visible rest : List Token} {depth : Nat} {text : Text} (s : Setting)

/-- Behind the last token stands the mark of the end. -/
theorem nextToken_kind (text : Text) (stop : Nat) (rest : List Token) :
    (nextToken text stop rest).kind = Parser.nextKind rest := by
  cases rest <;> rfl

theorem nextToken_offset (rest : List Token) :
    (nextToken text s.stop rest).offset = Parser.nextOffset s rest := by
  cases rest <;> rfl

/-- The name of a token is decoded without an operation that fails. -/
theorem name?_eq (token : Token) : name? token = some (Parser.name? token) := by
  unfold name? Parser.name?
  cases token.kind with
  | identifier => rw [unescape_eq]; rfl
  | _ => rfl

/-- White space is read to its end, if there is a turn for every token left. -/
theorem Makes.blanks {turns : Nat} (hTurns : rest.length < turns) :
    Makes visible depth rest (blanks (endedBy text visible s.stop) turns)
      (.ok (Parser.nextKind rest = .whitespace) (Parser.dropBlank rest)) := by
  induction turns generalizing rest with
  | zero => exact absurd hTurns (Nat.not_lt_zero _)
  | succ turns ih =>
    rw [Checked.blanks]
    cases rest with
    | nil => exact Makes.peek_nil.bind_ok (.pure false)
    | cons token rest =>
      refine Makes.peek_cons.bind_ok ?_
      by_cases hKind : token.kind = .whitespace
      · have hDrop : Parser.dropBlank (token :: rest) = Parser.dropBlank rest := by
          simp [Parser.dropBlank, hKind]
        have hMore := ih (Nat.lt_of_succ_lt_succ hTurns)
        rw [if_pos hKind, hDrop, Parser.nextKind, decide_eq_true hKind]
        exact Makes.advance_cons.bind_ok (hMore.bind_ok (.pure true))
      · have hDrop : Parser.dropBlank (token :: rest) = token :: rest := by
          simp [Parser.dropBlank, hKind]
        rw [if_neg hKind, hDrop, Parser.nextKind, decide_eq_false hKind]
        exact .pure false

theorem Makes.skipBlank :
    Makes visible depth rest (skipBlank (endedBy text visible s.stop))
      (.ok (Parser.nextKind rest = .whitespace) (Parser.dropBlank rest)) :=
  .of_suffix fun hSuffix => .blanks s (length_lt_endedBy hSuffix text s.stop)

/-- The mark of the end is never asked for, so that a token which is found can be passed. -/
theorem Makes.expect {kind : Token.Kind} (hKind : kind ≠ .eof) (delimiter : Char) :
    Makes visible depth rest (expect (endedBy text visible s.stop) kind delimiter)
      (Parser.expect s kind delimiter rest) := by
  cases rest with
  | nil =>
    refine Makes.peek_nil.bind_ok ?_
    rw [if_neg (fun hEof => hKind hEof.symm)]
    exact .failHere s _
  | cons token rest =>
    refine Makes.peek_cons.bind_ok ?_
    rw [Parser.expect]
    split
    · exact Makes.advance_cons.bind_ok (.pure ())
    · exact .failHere s _

theorem Makes.localName (expected : Expected) :
    Makes visible depth rest (localName (endedBy text visible s.stop) expected)
      (Parser.localName s expected rest) := by
  cases rest with
  | nil =>
    refine Makes.peek_nil.bind_ok (Makes.bind_ok (.attempt (name?_eq _)) ?_)
    exact .failHere s expected
  | cons token rest =>
    refine Makes.peek_cons.bind_ok (Makes.bind_ok (.attempt (name?_eq _)) ?_)
    rw [Parser.localName]
    cases Parser.name? token with
    | some name => exact Makes.advance_cons.bind_ok (.pure name)
    | none => exact .failHere s expected

theorem Makes.qualifiedName (expected : Expected) :
    Makes visible depth rest (qualifiedName (endedBy text visible s.stop) expected)
      (Parser.qualifiedName s expected rest) := by
  cases rest with
  | nil =>
    refine Makes.peek_nil.bind_ok (Makes.bind_ok (.attempt (name?_eq _)) ?_)
    exact .pure none
  | cons token rest =>
    refine Makes.peek_cons.bind_ok (Makes.bind_ok (.attempt (name?_eq _)) ?_)
    rw [Parser.qualifiedName]
    cases Parser.name? token with
    | some name =>
      refine Makes.advance_cons.bind_ok (Makes.peek.bind_ok ?_)
      rw [nextToken_kind]
      dsimp only
      split
      · rw [List.drop_one]
        exact Makes.advance.bind_ok ((Makes.localName s expected).map _)
      · exact .pure _
    | none =>
      dsimp only
      split
      · exact Makes.advance_cons.bind_ok ((Makes.localName s expected).map _)
      · exact .pure none

theorem map_append (o : Outcome Text) (first second : Text) :
    (o.map (second ++ ·)).map (first ++ ·) = o.map (first ++ second ++ ·) := by
  cases o with
  | ok value rest => simp [Outcome.map]
  | error fault groups rest => rfl

theorem map_nil_append (o : Outcome Text) : o.map ([] ++ ·) = o := by
  cases o <;> rfl

/-- Where a loop over texts ends, nothing comes behind what has been joined. -/
theorem Makes.joined (done : Text) :
    Makes visible depth rest (Pure.pure done) ((Outcome.ok [] rest).map (done ++ ·)) := by
  have hDone : done ++ [] = done := List.append_nil done
  rw [Outcome.map, hDone]
  exact .pure done

/-- The pieces of a string are joined to what has been read before. -/
theorem Makes.stringText {turns : Nat} (hTurns : rest.length < turns) (hCuttable : Cuttable visible)
    (mark : QuoteMark) (done : Text) :
    Makes visible depth rest (stringText (endedBy text visible s.stop) mark turns done)
      ((Parser.stringText s mark rest).map (done ++ ·)) := by
  induction turns generalizing rest done with
  | zero => exact absurd hTurns (Nat.not_lt_zero _)
  | succ turns ih =>
    rw [Checked.stringText]
    cases rest with
    | nil =>
      refine Makes.advance.bind_ok ?_
      exact .throw _
    | cons token rest =>
      have hMore := ih (Nat.lt_of_succ_lt_succ hTurns)
      refine .of_suffix fun hSuffix => Makes.advance_cons.bind_ok ?_
      rw [Parser.stringText]
      cases hKind : token.kind with
      | stringChars =>
        dsimp only
        rw [map_append]
        exact hMore (done ++ token.text)
      | escapedChar =>
        dsimp only
        rw [map_append]
        have hCut := hCuttable.fromByte? (hSuffix.subset List.mem_cons_self) (by rw [hKind]; rfl)
        exact Makes.bind_ok (.attempt hCut) (hMore (done ++ token.text.drop 1))
      | stringEnd other =>
        dsimp only
        split
        · exact .joined done
        · exact .throw _
      | _ => exact .throw _

theorem Makes.value (hCuttable : Cuttable visible) :
    Makes visible depth rest (value (endedBy text visible s.stop)) (Parser.value s rest) := by
  cases rest with
  | nil =>
    refine Makes.peek_nil.bind_ok ?_
    exact .failHere s .value
  | cons token rest =>
    refine Makes.peek_cons.bind_ok ?_
    rw [Parser.value]
    cases token.kind with
    | identifier => exact Makes.advance_cons.bind_ok (.attempt (unescape_eq token.text))
    | number => exact Makes.advance_cons.bind_ok (.pure token.text)
    | stringStart mark =>
      refine Makes.advance_cons.bind_ok (.of_suffix fun hSuffix => ?_)
      have hTurns := length_lt_endedBy hSuffix text s.stop
      exact (Makes.stringText s hTurns hCuttable mark []).of_eq (map_nil_append _)
    | _ => exact .failHere s .value

theorem Makes.comparison (hCuttable : Cuttable visible) :
    Makes visible depth rest (comparison (endedBy text visible s.stop)) (Parser.comparison s rest) := by
  cases rest with
  | nil =>
    refine Makes.peek_nil.bind_ok ?_
    exact .pure none
  | cons token rest =>
    refine Makes.peek_cons.bind_ok ?_
    rw [Parser.comparison]
    split
    · refine Makes.advance_cons.bind_ok ?_
      cases AttributeOperator.ofSymbol? token.text with
      | some operator =>
        refine (Makes.skipBlank s).bind_ok ((Makes.value s hCuttable).andThen fun value rest => ?_)
        exact (Makes.skipBlank s).bind_ok (.pure _)
      | none => exact .throw _
    · exact .pure none

/-- An attribute test is read without an operation that fails. -/
theorem Makes.attributeTest (hCuttable : Cuttable visible) :
    Makes visible depth rest (attributeTest (endedBy text visible s.stop))
      (Parser.attributeTest s rest) := by
  refine (Makes.skipBlank s).bind_ok (Makes.peek.bind_ok ?_)
  rw [nextToken_offset]
  refine (Makes.qualifiedName s .attributeName).andThen fun name rest => ?_
  match name with
  | some (qualifier, some name) =>
    refine (Makes.skipBlank s).bind_ok ((Makes.comparison s hCuttable).andThen fun found rest => ?_)
    exact (Makes.expect s (by decide) ']').map _
  | some (qualifier, none) => exact .throw _
  | none => exact .throw _

/-- The tokens of positions are joined to what has been read before. -/
theorem Makes.positionsText {turns : Nat} (hTurns : rest.length < turns) (done : Text) :
    Makes visible depth rest (positionsText (endedBy text visible s.stop) turns done)
      ((Parser.positionsText s rest).map (done ++ ·)) := by
  induction turns generalizing rest done with
  | zero => exact absurd hTurns (Nat.not_lt_zero _)
  | succ turns ih =>
    rw [Checked.positionsText]
    cases rest with
    | nil =>
      refine Makes.peek_nil.bind_ok ?_
      exact .failHere s .positions
    | cons token rest =>
      have hMore := ih (Nat.lt_of_succ_lt_succ hTurns)
      refine Makes.peek_cons.bind_ok ?_
      rw [Parser.positionsText]
      cases token.kind with
      | parenthesesEnd => exact .joined done
      | number | identifier | combinator | whitespace =>
        dsimp only
        rw [map_append]
        exact Makes.advance_cons.bind_ok (hMore (done ++ token.text))
      | _ => exact .failHere s .positions

/-- Positions behind the parenthesis that opens them. -/
theorem Makes.positions {parenthesis : Token} :
    Makes visible depth (parenthesis :: rest) (positions (endedBy text visible s.stop))
      (Parser.positions s parenthesis.stop rest) := by
  refine Makes.advance_cons.bind_ok (Makes.andThen ?_ fun text rest => ?_)
  · refine .of_suffix fun hSuffix => ?_
    have hTurns := length_lt_endedBy hSuffix text s.stop
    exact (Makes.positionsText s hTurns []).of_eq (map_nil_append _)
  refine Makes.bind_ok (.attempt (positionsOf_eq text)) ?_
  cases AnPlusB.read? text with
  | some positions =>
    dsimp only
    rw [List.drop_one]
    exact Makes.advance.bind_ok (.pure positions)
  | none => exact .throw _

/-- A text behind the parenthesis that opens it. -/
theorem Makes.textArgument (hCuttable : Cuttable visible) {parenthesis : Token} :
    Makes visible depth (parenthesis :: rest) (textArgument (endedBy text visible s.stop))
      (Parser.textArgument s rest) := by
  refine Makes.advance_cons.bind_ok ((Makes.skipBlank s).bind_ok ?_)
  refine (Makes.value s hCuttable).andThen fun text rest => ?_
  exact (Makes.skipBlank s).bind_ok ((Makes.expect s (by decide) ')').map _)

end

end SelectorXPath.Checked
