import SelectorXPath.Proofs.Checked.Parts
import SelectorXPath.Proofs.Checked.Scan
import SelectorXPath.Proofs.Selector.Parallel

/-!
# Selectors, read at a cursor

The grammar once more, with a count of open groups in place of the number of groups that may still
be opened. The count goes up by one at an opening parenthesis, where it is below the limit, and
down by one at the closing one, where it is not zero. Because it is below the limit, the turns that
the limit gives are enough for groups inside groups.
-/

namespace SelectorXPath.Checked

open SelectorXPath.Text

def link (tokens : List Token) : Reading (Option Combinator) := do
  let spaced ← skipBlank tokens
  let token ← peek tokens
  if token.kind = .combinator then
    let token ← advance tokens
    match Combinator.ofSymbol? token.text with
    | some combinator =>
      let _ ← skipBlank tokens
      return some combinator
    | none => throw ⟨token.offset, .selector⟩
  else if spaced ∧ Parser.startsCompound token.kind then return some .descendant
  else return none

/-- The name that a token holds behind the sign of its kind. -/
def nameBehindSign (token : Token) : Reading Text := do
  let raw ← attempt (fromByte? token.text 1)
  attempt (unescape raw)

def plain (token : Token) (name : Text) : Reading Simple :=
  match PseudoClass.ofName? name with
  | some pseudoClass => return .pseudo pseudoClass
  | none =>
    if (FunctionalClass.ofName? name).isSome then throw ⟨token.stop, .argument name⟩
    else throw ⟨token.offset, .supported (':' :: name)⟩

/-- How deep groups may nest: a number that the machine has. -/
structure DepthLimit where
  value : Nat
  /-- The largest number without sign that the machine has. -/
  largest : Nat
  le_largest : value ≤ largest

section

/-! The readings below are told how a group is read. -/

variable (group : Token → Reading SelectorList) (tokens : List Token)

def functional (token : Token) (name : Text) : Reading Simple :=
  match FunctionalClass.ofName? name with
  | some (.nth counting) => do
    let positions ← positions tokens
    return .nth counting positions
  | some .not => do
    let selectors ← group token
    return .not selectors
  | some .has => do
    let selectors ← group token
    return .has selectors
  | some .contains => do
    let text ← textArgument tokens
    return .contains text
  | none => throw ⟨token.offset, .supported (':' :: name ++ ['(', ')'])⟩

def pseudo : Reading Simple := do
  let token ← advance tokens
  let name ← nameBehindSign token
  let next ← peek tokens
  if next.kind = .parenthesesStart then functional group tokens token (lower name)
  else plain token (lower name)

def part : Reading (Option Simple) := do
  let token ← peek tokens
  match token.kind with
  | .classSelector =>
    let name ← nameBehindSign token
    let _ ← advance tokens
    return some (.class name)
  | .idSelector =>
    let name ← nameBehindSign token
    let _ ← advance tokens
    return some (.id name)
  | .attributeStart =>
    let _ ← advance tokens
    let test ← attributeTest tokens
    return some (.attribute test)
  | .pseudoClass =>
    let simple ← pseudo group tokens
    return some simple
  | .pseudoElement => throw ⟨token.offset, .supported token.text⟩
  | .identifier | .universal | .namespaceSeparator => failHere tokens .typeSelectorFirst
  | _ => return none

def parts : (turns : Nat) → Reading (List Simple)
  | 0 => attempt none
  | turns + 1 => do
    let found ← part group tokens
    match found with
    | some simple =>
      let more ← parts turns
      return simple :: more
    | none => return []

def compound : Reading Compound := do
  let start ← peek tokens
  let name ← qualifiedName tokens .elementName
  let parts ← parts group tokens tokens.length
  match name, parts with
  | none, [] => failHere tokens .selector
  | none, parts => return ⟨start.offset, parts⟩
  | some name, parts => return ⟨start.offset, Parser.Simple.ofName name :: parts⟩

def chain : (turns : Nat) → (left : Complex) → Reading Complex
  | 0, _ => attempt none
  | turns + 1, left => do
    let combinator ← link tokens
    match combinator with
    | none => return left
    | some combinator =>
      let right ← compound group tokens
      chain turns (left.joined combinator right)

def alternative : Reading Complex := do
  let _ ← skipBlank tokens
  let first ← compound group tokens
  let selector ← chain group tokens tokens.length (.single first)
  let _ ← skipBlank tokens
  return selector

def list (close : Token.Kind) : (turns : Nat) → Reading SelectorList
  | 0 => attempt none
  | turns + 1 => do
    let selector ← alternative group tokens
    let token ← peek tokens
    if token.kind = .separator then
      let _ ← advance tokens
      let more ← list close turns
      return selector :: more
    else if token.kind = close then return [selector]
    else failHere tokens (Parser.listEnd close)

end

/-- Reads a list in parentheses, and the groups inside of this one with `inner`. Another group must
be allowed at the cursor. -/
def nested (limit : DepthLimit) (tokens : List Token) (inner : Token → Reading SelectorList)
    (pseudo : Token) : Reading SelectorList := do
  let depth ← openGroups
  if limit.value ≤ depth then throw ⟨pseudo.offset, .nesting limit.value⟩
  else
    let _ ← advance tokens
    openGroup limit.largest
    let selectors ← list inner tokens .parenthesesEnd tokens.length
    closeGroup
    let _ ← advance tokens
    return selectors

/-- Reads a list in parentheses. Each group inside this one takes a turn. -/
def group (limit : DepthLimit) (tokens : List Token) : (turns : Nat) → Token → Reading SelectorList
  | 0, _ => attempt none
  | turns + 1, pseudo => nested limit tokens (group limit tokens turns) pseudo

/-- The tokens that are read: those that are no part of a comment, and a mark of the end. -/
def keptTokens (tokens : List Token) : List Token :=
  let visible := Mode.uncommented tokens
  match visible.getLast? with
  | some token =>
    if token.kind = .eof then visible else ended visible token.stop
  | none => ended [] 0

def parse (source : Text) (limit : DepthLimit) : Checked (Except SelectorError SelectorList) := do
  match ← tokenize source with
  | .error e => return .error (Selector.scanError source e)
  | .ok tokens =>
    let kept := keptTokens tokens
    let (result, _) ← list (group limit kept (limit.value + 1)) kept .eof kept.length ⟨0, 0⟩
    return result.mapError .grammatical

section

variable {visible rest : List Token} {depth : Nat} {text : Text} (s : Setting)

theorem Makes.link : Makes visible depth rest (link (endedBy text visible s.stop)) (Parser.link rest) := by
  refine (Makes.skipBlank s).bind_ok ?_
  unfold Parser.link
  cases Parser.dropBlank rest with
  | nil =>
    refine Makes.peek_nil.bind_ok ?_
    rw [if_neg (by simp), if_neg (by simp [Parser.startsCompound])]
    exact .pure none
  | cons token more =>
    refine Makes.peek_cons.bind_ok ?_
    dsimp only
    split
    · refine Makes.advance_cons.bind_ok ?_
      cases Combinator.ofSymbol? token.text with
      | some combinator => exact (Makes.skipBlank s).bind_ok (.pure _)
      | none => exact .throw _
    · simp only [decide_eq_true_eq]
      split
      · exact .pure _
      · exact .pure none

theorem Makes.plain (token : Token) :
    Makes visible depth rest (plain token (Parser.pseudoName token)) (Parser.plain token rest) := by
  unfold Checked.plain Parser.plain
  cases PseudoClass.ofName? (Parser.pseudoName token) with
  | some pseudoClass => exact .pure _
  | none =>
    dsimp only
    split
    · exact .throw _
    · exact .throw _

/-- The reading of groups at this depth makes what `groups` reads. -/
def MakesGroups (visible : List Token) (depth : Nat) (group : Token → Reading SelectorList)
    (groups : GroupParser) : Prop :=
  ∀ (token parenthesis : Token) (rest : List Token),
    Makes visible depth (parenthesis :: rest) (group token)
      (groups.read token.offset (parenthesis :: rest))

variable (hCuttable : Cuttable visible) {group : Token → Reading SelectorList} {groups : GroupParser}
variable (hGroups : MakesGroups visible depth group groups)

include hCuttable hGroups

omit hGroups in
/-- The name of a token begins behind its sign, which takes one byte. -/
theorem Makes.nameBehindSign {token : Token} {rest' : List Token}
    (hSuffix : token :: rest <:+ visible) (hCut : isCut token.kind = true) :
    Makes visible depth rest' (nameBehindSign token)
      (.ok (Text.unescape (token.text.drop 1)) rest') :=
  Makes.bind_ok (.attempt (hCuttable.fromByte? (hSuffix.subset List.mem_cons_self) hCut))
    (.attempt (unescape_eq (token.text.drop 1)))

/-- The parser of pseudo-classes, with groups that make what the groups of the grammar make. -/
theorem Makes.functional (token parenthesis : Token) :
    Makes visible depth (parenthesis :: rest)
      (functional group (endedBy text visible s.stop) token (Parser.pseudoName token))
      (Parser.functional s groups token parenthesis rest) := by
  rw [Checked.functional, Parser.functional]
  cases FunctionalClass.ofName? (Parser.pseudoName token) with
  | none => exact .throw _
  | some functional =>
    cases functional with
    | nth counting => exact (Makes.positions s).map _
    | not => exact (hGroups token parenthesis rest).map _
    | has => exact (hGroups token parenthesis rest).map _
    | contains => exact (Makes.textArgument s hCuttable).map _

theorem Makes.pseudo {token : Token} (hKind : token.kind = .pseudoClass) :
    Makes visible depth (token :: rest) (pseudo group (endedBy text visible s.stop))
      (Parser.pseudo s groups token rest) := by
  rw [Checked.pseudo]
  refine .of_suffix fun hSuffix => Makes.advance_cons.bind_ok ?_
  refine (Makes.nameBehindSign hCuttable hSuffix (by rw [hKind]; rfl)).bind_ok ?_
  cases rest with
  | nil =>
    refine Makes.peek_nil.bind_ok ?_
    exact .plain token
  | cons next rest =>
    refine Makes.peek_cons.bind_ok ?_
    rw [Parser.pseudo]
    split
    · exact .functional s hCuttable hGroups token next
    · exact .plain token

/-- Which part is next is decided by the kind of the token at the cursor. -/
theorem Makes.part :
    Makes visible depth rest (part group (endedBy text visible s.stop)) (Parser.part s groups rest) := by
  rw [Checked.part]
  cases rest with
  | nil =>
    refine Makes.peek_nil.bind_ok ?_
    exact .pure none
  | cons token rest =>
    refine .of_suffix fun hSuffix => Makes.peek_cons.bind_ok ?_
    rw [Parser.part]
    cases hKind : token.kind with
    | classSelector =>
      refine (Makes.nameBehindSign hCuttable hSuffix (by rw [hKind]; rfl)).bind_ok ?_
      exact Makes.advance_cons.bind_ok (.pure _)
    | idSelector =>
      refine (Makes.nameBehindSign hCuttable hSuffix (by rw [hKind]; rfl)).bind_ok ?_
      exact Makes.advance_cons.bind_ok (.pure _)
    | attributeStart => exact Makes.advance_cons.bind_ok ((Makes.attributeTest s hCuttable).map _)
    | pseudoClass => exact (Makes.pseudo s hCuttable hGroups hKind).map _
    | pseudoElement => exact .throw _
    | identifier | universal | namespaceSeparator => exact .failHere s _
    | _ => exact .pure none

/-- One turn for each token left, and one more, is enough for all parts. -/
theorem Makes.parts {turns : Nat} (hTurns : rest.length < turns) :
    Makes visible depth rest (parts group (endedBy text visible s.stop) turns)
      (Parser.parts s groups rest) := by
  induction turns generalizing rest with
  | zero => exact absurd hTurns (Nat.not_lt_zero _)
  | succ turns ih =>
    have hPart : Makes visible depth rest (Checked.part group (endedBy text visible s.stop))
        (Parser.part s groups rest) := .part s hCuttable hGroups
    rw [Checked.parts, Parser.parts]
    split
    · rename_i simple rest' h
      have hShorter := Parser.length_lt_of_part h
      exact (hPart.of_eq h).bind_ok ((ih (by omega)).map _)
    · rename_i rest' h
      exact (hPart.of_eq h).bind_ok (.pure [])
    · rename_i fault count rest' h
      exact (hPart.of_eq h).bind_error

theorem Makes.compound :
    Makes visible depth rest (compound group (endedBy text visible s.stop))
      (Parser.compound s groups rest) := by
  rw [Checked.compound]
  refine Makes.peek.bind_ok ?_
  rw [nextToken_offset]
  refine (Makes.qualifiedName s .elementName).andThen fun name rest => .of_suffix fun hSuffix => ?_
  have hTurns := length_lt_endedBy hSuffix text s.stop
  refine (Makes.parts s hCuttable hGroups hTurns).andThen fun parts rest => ?_
  match name, parts with
  | none, [] => exact .failHere s .selector
  | none, part :: parts => exact .pure _
  | some name, parts => exact .pure _

/-- One turn for each token left, and one more, is enough for all compounds of a chain. -/
theorem Makes.chain {turns : Nat} (hTurns : rest.length < turns) (left : Complex) :
    Makes visible depth rest (chain group (endedBy text visible s.stop) turns left)
      (Parser.chain s groups left rest) := by
  induction turns generalizing rest left with
  | zero => exact absurd hTurns (Nat.not_lt_zero _)
  | succ turns ih =>
    rw [Checked.chain, Parser.chain]
    split
    · rename_i rest' h
      exact ((Makes.link s).of_eq h).bind_ok (.pure left)
    · rename_i fault count rest' h
      exact ((Makes.link s).of_eq h).bind_error
    · rename_i combinator rest' h
      refine ((Makes.link s).of_eq h).bind_ok ?_
      dsimp only
      split
      · rename_i right rest'' h'
        have hShorter : rest''.length < rest.length :=
          Nat.lt_of_le_of_lt ((Parser.compound_bounded s groups).length_le_of_ok h')
            (Parser.length_lt_of_link h)
        exact ((Makes.compound s hCuttable hGroups).of_eq h').bind_ok (ih (by omega) _)
      · rename_i fault count rest'' h'
        exact ((Makes.compound s hCuttable hGroups).of_eq h').bind_error

theorem Makes.alternative :
    Makes visible depth rest (alternative group (endedBy text visible s.stop))
      (Parser.alternative s groups rest) := by
  rw [Checked.alternative, Parser.alternative, Parser.complex]
  refine (Makes.skipBlank s).bind_ok ?_
  cases h : Parser.compound s groups (Parser.dropBlank rest) with
  | error fault count rest' => exact ((Makes.compound s hCuttable hGroups).of_eq h).bind_error
  | ok first rest' =>
    refine ((Makes.compound s hCuttable hGroups).of_eq h).bind_ok (.of_suffix fun hSuffix => ?_)
    have hTurns := length_lt_endedBy hSuffix text s.stop
    refine (Makes.chain s hCuttable hGroups hTurns (.single first)).andThen fun selector rest => ?_
    exact (Makes.skipBlank s).bind_ok (.pure selector)

/-- The same number of turns is enough for all selectors of a list. -/
theorem Makes.list (close : Token.Kind) {turns : Nat} (hTurns : rest.length < turns) :
    Makes visible depth rest (list group (endedBy text visible s.stop) close turns)
      (Parser.list s groups close rest) := by
  induction turns generalizing rest with
  | zero => exact absurd hTurns (Nat.not_lt_zero _)
  | succ turns ih =>
    have hFirst : Makes visible depth rest (Checked.alternative group (endedBy text visible s.stop))
        (Parser.alternative s groups rest) := .alternative s hCuttable hGroups
    rw [Checked.list, Parser.list]
    split
    · rename_i fault count rest' h
      exact (hFirst.of_eq h).bind_error
    · rename_i selector h
      refine (hFirst.of_eq h).bind_ok (Makes.peek_nil.bind_ok ?_)
      rw [if_neg (by simp)]
      dsimp only
      by_cases hClose : close = .eof
      · rw [if_pos hClose.symm, if_pos hClose]
        exact .pure [selector]
      · rw [if_neg fun hEof => hClose hEof.symm, if_neg hClose]
        exact .failHere s _
    · rename_i selector token rest' h
      have hShorter : rest'.length < rest.length :=
        Nat.lt_of_succ_le ((Parser.alternative_bounded s groups).length_le_of_ok h)
      refine (hFirst.of_eq h).bind_ok (Makes.peek_cons.bind_ok ?_)
      split
      · exact Makes.advance_cons.bind_ok ((ih (by omega)).map _)
      · split
        · exact .pure [selector]
        · exact .failHere s _

omit hGroups in
/-- Groups may be opened as long as the limit is not reached, and then the count of open groups is
far from its bound. -/
theorem makesGroups {limit : DepthLimit} (hLimit : s.limit = limit.value) (allowance : Nat) :
    ∀ depth turns, limit.value - depth = allowance → allowance < turns →
      MakesGroups visible depth (Checked.group limit (endedBy text visible s.stop) turns)
        (Parser.groups s allowance) := by
  induction allowance with
  | zero =>
    intro depth turns hDepth hTurns token parenthesis rest
    obtain ⟨turns, rfl⟩ := Nat.exists_eq_succ_of_ne_zero (Nat.ne_zero_of_lt hTurns)
    rw [Checked.group]
    refine Makes.openGroups.bind_ok ?_
    rw [if_pos (by omega), ← hLimit]
    exact .throw _
  | succ allowance ih =>
    intro depth turns hDepth hTurns token parenthesis rest
    obtain ⟨turns, rfl⟩ := Nat.exists_eq_succ_of_ne_zero (Nat.ne_zero_of_lt hTurns)
    have hInner := ih (depth + 1) turns (by omega) (Nat.lt_of_succ_lt_succ hTurns)
    have hCount : depth < limit.largest :=
      Nat.lt_of_lt_of_le (by omega : depth < limit.value) limit.le_largest
    rw [Checked.group]
    refine Makes.openGroups.bind_ok ?_
    rw [if_neg (by omega)]
    refine Makes.advance_cons.bind_ok (.of_suffix fun hSuffix => ?_)
    have hLength := length_lt_endedBy hSuffix text s.stop
    refine Makes.inGroup hCount (.list s hCuttable hInner .parenthesesEnd hLength) ?_
    intro selectors rest'
    rw [List.drop_one]
    exact Makes.advance.bind_ok (.pure selectors)

end

/-- Of scanned tokens those are kept that are no part of a comment. -/
theorem keptTokens_append_eof (front : List Token) (offset : Nat) :
    keptTokens (front ++ [⟨.eof, [], offset⟩]) = endedBy [] (Mode.uncommented front) offset := by
  simp [keptTokens, Mode.uncommented, Token.Kind.isComment, endedBy]

/-- Reading a selector has a value for every source and every limit that the machine can count up
to. -/
theorem parse_eq (source : Text) (limit : DepthLimit) :
    parse source limit = some (Selector.parse source limit.value) := by
  unfold parse
  rw [tokenize_eq]
  simp only [Option.bind_eq_bind, Option.bind_some]
  cases hTokens : SelectorXPath.tokenize source with
  | error e => simp [Selector.parse, hTokens]
  | ok tokens =>
    obtain ⟨front, offset, rfl, hScanned, -⟩ :=
      Scan.scanned_of_run (Scan.start_stringsOnTop source) hTokens
    have hCuttable : Cuttable (Mode.uncommented front) := cuttable_of_sign fun token hToken => by
      have hRecognized := hScanned.recognized token hToken
      exact hRecognized.sign_prefix
    have hGroups : MakesGroups (Mode.uncommented front) 0
        (group limit (endedBy [] (Mode.uncommented front) offset) (limit.value + 1))
        (Parser.groups ⟨offset, limit.value⟩ limit.value) :=
      makesGroups ⟨offset, limit.value⟩ hCuttable rfl limit.value 0 _ rfl (Nat.lt_succ_self _)
    have hSuffix := List.suffix_refl (Mode.uncommented front)
    have hTurns := length_lt_endedBy hSuffix [] offset
    obtain ⟨hValue, -⟩ := Makes.list ⟨offset, limit.value⟩ hCuttable hGroups .eof hTurns hSuffix
    have hStart : cursorAt (Mode.uncommented front) (Mode.uncommented front) 0 = ⟨0, 0⟩ := by
      simp [cursorAt]
    rw [hStart] at hValue
    dsimp only at hValue ⊢
    rw [Selector.parse_eq_result hTokens, keptTokens_append_eof, hValue]
    cases Parser.list _ _ _ _ <;> rfl

end SelectorXPath.Checked
