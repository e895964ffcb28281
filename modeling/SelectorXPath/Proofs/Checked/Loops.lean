import SelectorXPath.Proofs.Checked.Parser
import SelectorXPath.Proofs.Checked.Runs

/-!
# The loops of the grammar

White space, strings, positions, the parts of a compound, the compounds of a chain and the selectors
of a list are read by loops. Each of them is a body that is repeated, with what has been read so far
as its state. Where the reading puts an entry in front of what comes behind it, the loop adds the
entry to what it has, which comes to the same.
-/

namespace SelectorXPath.Checked

open SelectorXPath.Text

section

variable (tokens : List Token)

def blank (spaced : Bool) : Reading (Turn Bool Bool) := do
  let token ← peek tokens
  if token.kind = .whitespace then
    let _ ← advance tokens
    return .again true
  else return .leave spaced

def stringPiece (mark : QuoteMark) (done : Text) : Reading (Turn Text Text) := do
  let token ← advance tokens
  match token.kind with
  | .stringChars => return .again (done ++ token.text)
  | .escapedChar =>
    let text ← attempt (fromByte? token.text 1)
    return .again (done ++ text)
  | kind =>
    if kind = .stringEnd mark then return .leave done
    else throw ⟨token.offset, .delimiter mark.char⟩

def positionsPiece (done : Text) : Reading (Turn Text Text) := do
  let token ← peek tokens
  match token.kind with
  | .parenthesesEnd => return .leave done
  | .number | .identifier | .combinator | .whitespace =>
    let _ ← advance tokens
    return .again (done ++ token.text)
  | _ => failHere tokens .positions

variable (group : Token → Reading SelectorList)

def nextPart (done : List Simple) : Reading (Turn (List Simple) (List Simple)) := do
  let found ← part group tokens
  match found with
  | some simple => return .again (done ++ [simple])
  | none => return .leave done

/-- Reads one compound of a chain, with the combinator in front. -/
def nextCompound (left : Complex) : Reading (Turn Complex Complex) := do
  let combinator ← link tokens
  match combinator with
  | none => return .leave left
  | some combinator =>
    let right ← compound group tokens
    return .again (left.joined combinator right)

/-- Reads one selector of a list, with the comma or the end behind it. -/
def nextSelector (close : Token.Kind) (done : SelectorList) :
    Reading (Turn SelectorList SelectorList) := do
  let selector ← alternative group tokens
  let token ← peek tokens
  if token.kind = .separator then
    let _ ← advance tokens
    return .again (done ++ [selector])
  else if token.kind = close then return .leave (done ++ [selector])
  else failHere tokens (Parser.listEnd close)

end

section

variable (tokens : List Token) (group : Token → Reading SelectorList) (turns : Nat)

/-- Nothing is done behind an error. -/
theorem failHere_bind {α β : Type} (expected : Expected) (f : α → Reading β) :
    (failHere tokens expected >>= f) = failHere tokens expected :=
  bind_assoc _ _ _

/-- What has been skipped before counts as well. -/
theorem repeated_blank (spaced : Bool) :
    repeated (blank tokens) turns spaced = do
      let more ← blanks tokens turns
      return spaced || more := by
  induction turns generalizing spaced with
  | zero => rfl
  | succ turns ih =>
    simp only [repeated, blank, blanks, bind_assoc]
    refine bind_congr fun token => ?_
    split
    · simp only [bind_assoc, pure_bind, ih, Bool.true_or, Bool.or_true]
    · simp only [pure_bind, Bool.or_false]

/-- The loop over white space is its body, repeated. -/
theorem blanks_eq_repeated : blanks tokens turns = repeated (blank tokens) turns false := by
  simp only [repeated_blank, Bool.false_or, bind_pure]

theorem stringText_eq_repeated (mark : QuoteMark) (done : Text) :
    stringText tokens mark turns done = repeated (stringPiece tokens mark) turns done := by
  induction turns generalizing done with
  | zero => rfl
  | succ turns ih =>
    simp only [repeated, stringPiece, stringText, bind_assoc]
    refine bind_congr fun token => ?_
    cases token.kind with
    | stringChars => simp only [pure_bind, ih]
    | escapedChar => simp only [bind_assoc, pure_bind, ih]
    | _ =>
      dsimp only
      split
      · simp only [pure_bind]
      · rfl

theorem positionsText_eq_repeated (done : Text) :
    positionsText tokens turns done = repeated (positionsPiece tokens) turns done := by
  induction turns generalizing done with
  | zero => rfl
  | succ turns ih =>
    simp only [repeated, positionsPiece, positionsText, bind_assoc]
    refine bind_congr fun token => ?_
    cases token.kind with
    | parenthesesEnd => simp only [pure_bind]
    | number | identifier | combinator | whitespace => simp only [bind_assoc, pure_bind, ih]
    | _ => simp only [failHere_bind]

/-- The parts that are read come behind those that the loop has. -/
theorem repeated_nextPart (done : List Simple) :
    repeated (nextPart tokens group) turns done = do
      let more ← parts group tokens turns
      return done ++ more := by
  induction turns generalizing done with
  | zero => rfl
  | succ turns ih =>
    simp only [repeated, nextPart, parts, bind_assoc]
    refine bind_congr fun found => ?_
    cases found with
    | some simple => simp only [bind_assoc, pure_bind, ih, List.append_assoc, List.singleton_append]
    | none => simp only [pure_bind, List.append_nil]

/-- The loop over parts is its body, repeated. It collects what has been read so far. -/
theorem parts_eq_repeated : parts group tokens turns = repeated (nextPart tokens group) turns [] := by
  simp only [repeated_nextPart, List.nil_append, bind_pure]

/-- The loop over compounds is its body, repeated, with the chain so far as its state. -/
theorem chain_eq_repeated (left : Complex) :
    chain group tokens turns left = repeated (nextCompound tokens group) turns left := by
  induction turns generalizing left with
  | zero => rfl
  | succ turns ih =>
    simp only [repeated, nextCompound, chain, bind_assoc]
    refine bind_congr fun combinator => ?_
    cases combinator with
    | none => simp only [pure_bind]
    | some combinator => simp only [bind_assoc, pure_bind, ih]

/-- What has been read of a list before stays in front of what is read now. -/
theorem repeated_nextSelector (close : Token.Kind) (done : SelectorList) :
    repeated (nextSelector tokens group close) turns done = do
      let more ← list group tokens close turns
      return done ++ more := by
  induction turns generalizing done with
  | zero => rfl
  | succ turns ih =>
    simp only [repeated, nextSelector, list, bind_assoc]
    refine bind_congr fun selector => bind_congr fun token => ?_
    split
    · simp only [bind_assoc, pure_bind, ih, List.append_assoc, List.singleton_append]
    · split
      · simp only [pure_bind]
      · simp only [failHere_bind]

/-- The loop over selectors is its body, repeated. -/
theorem list_eq_repeated (close : Token.Kind) :
    list group tokens close turns = repeated (nextSelector tokens group close) turns [] := by
  simp only [repeated_nextSelector, List.nil_append, bind_pure]

end

end SelectorXPath.Checked
