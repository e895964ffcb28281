import SelectorXPath.Token.Mode

/-!
# Scanning

A source is cut into tokens from left to right. Modes that are open lie on a stack; the innermost
one recognises the next token, which may close that mode or open another inside it. The mode at the
bottom of the stack is never closed.

`Scan.step` takes one token off the source, at least one character long, and `Scan.run` repeats it
until nothing is left.
-/

namespace SelectorXPath

/-- What can be wrong with the characters of a source. -/
inductive LexFault where
  /-- The mode has no token that begins with this character. -/
  | unexpected (c : Char)
  /-- The source ends inside this mode. -/
  | unterminated (mode : Mode)
  /-- A closing delimiter with nothing to close. -/
  | unbalanced (delimiter : Text)
  deriving DecidableEq, Repr

/-- A fault and where it lies. A mode left open is reported where it was opened. -/
structure LexError where
  offset : Nat
  fault : LexFault
  deriving DecidableEq, Repr

def LexFault.message : LexFault → String
  | .unexpected c => s!"unexpected character '{c}'"
  | .unterminated mode => s!"unterminated {mode.description}"
  | .unbalanced delimiter => s!"unbalanced '{String.ofList delimiter}'"

def LexError.message (e : LexError) : String :=
  s!"Lexer error at offset {e.offset}: {e.fault.message}"

/-- An open mode, and the offset of the token that opened it. -/
structure Frame where
  mode : Mode
  openedAt : Nat
  deriving DecidableEq, Repr

/-- How far a source has been scanned. -/
structure Scan where
  /-- What is left of the source. -/
  rest : Text
  /-- The byte offset at which the rest begins. -/
  offset : Nat
  /-- The innermost open mode. -/
  top : Frame
  /-- The modes around it, from the inside out. -/
  below : List Frame
  deriving DecidableEq, Repr

namespace Scan

def start (source : Text) : Scan :=
  ⟨source, 0, ⟨.selector, 0⟩, []⟩

def depth (s : Scan) : Nat :=
  s.below.length + 1

/-- The stack of modes behind a token. -/
def shift (s : Scan) (token : Token) : Except LexError (Frame × List Frame) :=
  if s.top.mode.isClosedBy token.kind then
    match s.below with
    | [] => .error ⟨token.offset, .unbalanced token.text⟩
    | frame :: below => .ok (frame, below)
  else
    match s.top.mode.opened? token.kind with
    | some mode => .ok (⟨mode, token.offset⟩, s.top :: s.below)
    | none => .ok (s.top, s.below)

/-- Takes the next token off a source that begins with `c` and goes on with `t`. -/
def take (s : Scan) (c : Char) (t : Text) : Except LexError (Token × Scan) :=
  match s.top.mode.recognize? (c :: t) with
  | none => .error ⟨s.offset, .unexpected c⟩
  | some (kind, length) =>
    let token : Token := ⟨kind, c :: t.take (length - 1), s.offset⟩
    match s.shift token with
    | .error e => .error e
    | .ok (top, below) => .ok (token, ⟨t.drop (length - 1), token.stop, top, below⟩)

/-- Takes the next token; there is none at the end of the source. -/
def step (s : Scan) : Option (Except LexError (Token × Scan)) :=
  match s.rest with
  | [] => none
  | c :: t => some (s.take c t)

/-- Ends the scan where nothing is left of the source. Every mode but the outermost must have been
closed. -/
def finish (s : Scan) : Except LexError (List Token) :=
  if s.top.mode = .selector then .ok [⟨.eof, [], s.offset⟩]
  else .error ⟨s.top.openedAt, .unterminated s.top.mode⟩

/-- Every token takes a character off the source, so a scan ends. -/
theorem length_rest_of_step {s s' : Scan} {token : Token}
    (h : s.step = some (.ok (token, s'))) : s'.rest.length < s.rest.length := by
  unfold step at h
  split at h
  · simp at h
  · rename_i c t hRest
    simp only [Option.some.injEq] at h
    unfold take at h
    split at h
    · simp at h
    · dsimp only at h
      split at h
      · simp at h
      · simp only [Except.ok.injEq, Prod.mk.injEq] at h
        obtain ⟨-, rfl⟩ := h
        simp only [hRest, List.length_drop, List.length_cons]
        omega

def run (s : Scan) : Except LexError (List Token) :=
  match _h : s.step with
  | none => s.finish
  | some (.error e) => .error e
  | some (.ok (token, next)) => (run next).map (token :: ·)
termination_by s.rest.length
decreasing_by exact length_rest_of_step _h

end Scan

def tokenize (source : Text) : Except LexError (List Token) :=
  (Scan.start source).run

end SelectorXPath
