import SelectorXPath.Proofs.Checked.Names
import SelectorXPath.Proofs.Token.Local
import SelectorXPath.Proofs.Token.Lossless

/-!
# Scanning, with offsets and a stack of its own

Tokens are recognised by their size in bytes and cut out of the source at the offset that the
scanner has reached; the open modes lie in a list of which the last is the innermost. Every cut is
made between characters and the list is never empty, so the scan has a value for every source: the
tokens or the error that scanning by characters gives.
-/

namespace SelectorXPath.Checked

open SelectorXPath.Text
open SelectorXPath.Token (Kind)

/-- A token that is given by its length in characters, given by its size. -/
def sized (t : Text) (found : Option (Kind × Nat)) : Option (Kind × Nat) :=
  found.map fun token => (token.1, byteLength (t.take token.2))

def whitespace (t : Text) : Option Nat :=
  let length := (firstByte? (fun c => !isBlank c) t).getD (byteLength t)
  if length = 0 then none else some length

def trivia (t : Text) : Option (Kind × Nat) :=
  match whitespace t with
  | some length => some (.whitespace, length)
  | none => if ['/', '*'].isPrefixOf t then some (.commentStart, 2) else none

/-- A token of `lead` bytes and of what is measured behind them. -/
def withLead (kind : Kind) (lead : Nat) (measure : Text → Checked (Option Nat)) (t : Text) :
    Checked (Option (Kind × Nat)) := do
  let tail ← fromByte? t lead
  let length ← measure tail
  return length.map fun length => (kind, lead + length)

def selectorSign : Text → Checked (Option (Kind × Nat))
  | ':' :: ':' :: t => withLead .pseudoElement 2 identifier (':' :: ':' :: t)
  | ':' :: t => withLead .pseudoClass 1 identifier (':' :: t)
  | '.' :: t => withLead .classSelector 1 identifier ('.' :: t)
  | '#' :: t => withLead .idSelector 1 name ('#' :: t)
  | '*' :: _ => some (some (.universal, 1))
  | '|' :: _ => some (some (.namespaceSeparator, 1))
  | '>' :: _ => some (some (.combinator, 1))
  | '+' :: _ => some (some (.combinator, 1))
  | '~' :: _ => some (some (.combinator, 1))
  | ',' :: _ => some (some (.separator, 1))
  | '[' :: _ => some (some (.attributeStart, 1))
  | '(' :: _ => some (some (.parenthesesStart, 1))
  | ')' :: _ => some (some (.parenthesesEnd, 1))
  | ']' :: _ => some (some (.attributeEnd, 1))
  | t => withLead .identifier 0 identifier t

def selectorToken (t : Text) : Checked (Option (Kind × Nat)) :=
  match trivia t with
  | some token => some (some token)
  | none => selectorSign t

def stringToken (mark : QuoteMark) : Text → Option (Kind × Nat)
  | [] => none
  | c :: t =>
    if c = mark.char then some (.stringEnd mark, mark.char.utf8Size)
    else if c = '\\' then
      match t with
      | d :: _ => if d = mark.char ∨ d = '\\' then some (.escapedChar, 2) else none
      | [] => none
    else
      some (.stringChars,
        (firstByte? (fun d => d = '\\' || d = mark.char) (c :: t)).getD (byteLength (c :: t)))

def attributeSign : Text → Checked (Option (Kind × Nat))
  | ']' :: _ => some (some (.attributeEnd, 1))
  | '~' :: '=' :: _ => some (some (.attributeOperator, 2))
  | '|' :: '=' :: _ => some (some (.attributeOperator, 2))
  | '^' :: '=' :: _ => some (some (.attributeOperator, 2))
  | '$' :: '=' :: _ => some (some (.attributeOperator, 2))
  | '*' :: '=' :: _ => some (some (.attributeOperator, 2))
  | '=' :: _ => some (some (.attributeOperator, 1))
  | '*' :: _ => some (some (.universal, 1))
  | '|' :: _ => some (some (.namespaceSeparator, 1))
  | t => do
    match ← withLead .identifier 0 identifier t with
    | some token => return some token
    | none => withLead .number 0 number t

def attributeToken (t : Text) : Checked (Option (Kind × Nat)) :=
  match trivia t <|> Mode.stringStart? t with
  | some token => some (some token)
  | none => attributeSign t

def argumentToken (t : Text) : Checked (Option (Kind × Nat)) :=
  match Mode.stringStart? t with
  | some token => some (some token)
  | none => do
    match ← withLead .number 0 number t with
    | some token => return some token
    | none => selectorToken t

/-- The byte offset of the mark that closes a comment. -/
def closeByte? : Text → Option Nat
  | [] => none
  | '*' :: '/' :: _ => some 0
  | c :: t => (closeByte? t).map (c.utf8Size + ·)

def commentToken : Text → Option (Kind × Nat)
  | '*' :: '/' :: _ => some (.commentEnd, 2)
  | t =>
    let length := (closeByte? t).getD (byteLength t)
    if length = 0 then none else some (.commentText, length)

def recognize : Mode → Text → Checked (Option (Kind × Nat))
  | .selector, t => selectorToken t
  | .string mark, t => some (stringToken mark t)
  | .attribute, t => attributeToken t
  | .argument, t => argumentToken t
  | .comment, t => some (commentToken t)

/-- The token at a byte offset. An offset at which nothing begins is no failure here. -/
def tokenAt (mode : Mode) (source : Text) (offset : Nat) : Checked (Option Token) :=
  match fromByte? source offset with
  | none => some none
  | some [] => some none
  | some rest => do
    match ← recognize mode rest with
    | none => return none
    | some (kind, length) =>
      let text ← uptoByte? rest length
      return some ⟨kind, text, offset⟩

/-- How far a source has been scanned. -/
structure Scanner where
  offset : Nat
  /-- The open modes, from the outside in. -/
  stack : List Frame
  tokens : List Token

/-- The innermost open mode, which is the last of the stack. -/
def Scanner.top (s : Scanner) : Checked Frame := do
  let last ← less? s.stack.length 1
  s.stack[last]?

def scanToken (source : Text) (s : Scanner) : Checked (Except LexError Scanner) := do
  let top ← s.top
  match ← tokenAt top.mode source s.offset with
  | none =>
    let rest ← fromByte? source s.offset
    return .error ⟨s.offset, .unexpected (rest.head?.getD '\x00')⟩
  | some token =>
    if top.mode.isClosedBy token.kind then
      if s.stack.length ≤ 1 then return .error ⟨token.offset, .unbalanced token.text⟩
      else return .ok ⟨token.stop, s.stack.dropLast, s.tokens ++ [token]⟩
    else
      match top.mode.opened? token.kind with
      | some mode =>
        return .ok ⟨token.stop, s.stack ++ [⟨mode, token.offset⟩], s.tokens ++ [token]⟩
      | none => return .ok ⟨token.stop, s.stack, s.tokens ++ [token]⟩

def scanTokens (source : Text) : (turns : Nat) → Scanner → Checked (Except LexError (List Token))
  | 0, _ => none
  | turns + 1, s =>
    if byteLength source ≤ s.offset then do
      let top ← s.top
      return if top.mode = .selector then .ok (s.tokens ++ [⟨.eof, [], byteLength source⟩])
        else .error ⟨top.openedAt, .unterminated top.mode⟩
    else do
      match ← scanToken source s with
      | .error e => return .error e
      | .ok next => scanTokens source turns next

def tokenize (source : Text) : Checked (Except LexError (List Token)) :=
  scanTokens source (source.length + 1) ⟨0, [⟨.selector, 0⟩], []⟩

/-- White space has the size of its blanks. -/
theorem whitespace_eq (t : Text) : whitespace t = reach? t (blankLength t) := by
  have hTake : t.take (blankLength t) = t.takeWhile isBlank := take_length_takeWhile t
  have hInside : blankLength t ≤ t.length := (List.takeWhile_prefix _).length_le
  simp only [whitespace, firstByte?_getD, Bool.not_not, reach?_eq_ite hInside, hTake]

theorem trivia_eq (t : Text) : trivia t = sized t (Mode.trivia? t) := by
  unfold trivia Mode.trivia?
  rw [whitespace_eq]
  cases blankLength t with
  | succ n => rfl
  | zero =>
    rw [reach?_zero]
    dsimp only
    split
    · rename_i hStart
      obtain ⟨rest, rfl⟩ := List.isPrefixOf_iff_prefix.mp hStart
      rfl
    · rename_i hOther
      split
      · exact absurd rfl hOther
      · rfl

theorem stringStart_eq (t : Text) : Mode.stringStart? t = sized t (Mode.stringStart? t) := by
  unfold Mode.stringStart?
  split <;> rfl

/-- What is measured behind some characters is cut off behind them. -/
theorem withLead_eq (kind : Kind) (front t : Text) {measure : Text → Checked (Option Nat)}
    {length : Text → Nat} (h : ∀ t, measure t = some (reach? t (length t))) :
    withLead kind (byteLength front) measure (front ++ t) =
      some (sized (front ++ t) (Mode.withLead kind front.length (length t))) := by
  simp only [withLead, fromByte?_append, Option.bind_eq_bind, Option.bind_some, h]
  rw [Mode.withLead, reach?]
  split
  · rfl
  · simp [sized, List.take_length_add_append, byteLength_append]

theorem withLead_zero_eq (kind : Kind) (t : Text) {measure : Text → Checked (Option Nat)}
    {length : Text → Nat} (h : ∀ t, measure t = some (reach? t (length t))) :
    withLead kind 0 measure t = some (sized t (Mode.nonempty kind (length t))) :=
  withLead_eq kind [] t h

/-- Every sign takes one byte, so that what stands behind it begins between two characters. -/
theorem selectorSign_eq (t : Text) :
    selectorSign t = some (sized t (Mode.selectorSign? t)) := by
  unfold selectorSign
  split
  · exact withLead_eq .pseudoElement [':', ':'] _ identifier_eq
  · rename_i t hPair
    rw [Mode.selectorSign?.eq_2 _ hPair]
    exact withLead_eq .pseudoClass [':'] t identifier_eq
  · exact withLead_eq .classSelector ['.'] _ identifier_eq
  · exact withLead_eq .idSelector ['#'] _ name_eq
  · rfl
  · rfl
  · rfl
  · rfl
  · rfl
  · rfl
  · rfl
  · rfl
  · rfl
  · rfl
  · rw [Mode.selectorSign?.eq_15]
    · exact withLead_zero_eq .identifier t identifier_eq
    all_goals assumption

/-- A reader that is tried where another one finds nothing. -/
theorem sized_orElse {t : Text} {first second : Option (Kind × Nat)} :
    sized t (first <|> second) = (sized t first <|> sized t second) := by
  cases first <;> rfl

theorem selectorToken_eq (t : Text) :
    selectorToken t = some (sized t (Mode.selectorToken? t)) := by
  rw [selectorToken, trivia_eq, selectorSign_eq, Mode.selectorToken?, sized_orElse]
  cases Mode.trivia? t <;> rfl

/-- The longest run of characters of a kind, measured from where the first other one stands. -/
theorem firstByte?_run {p q : Char → Bool} (h : ∀ c, q c = !p c) (t : Text) :
    (firstByte? p t).getD (byteLength t) = byteLength (t.take (t.takeWhile q).length) := by
  rw [firstByte?_getD, take_length_takeWhile, funext h]

/-- The marks and the backslash take one byte each. -/
theorem stringToken_eq (mark : QuoteMark) (t : Text) :
    stringToken mark t = sized t (Mode.stringToken? mark t) := by
  cases t with
  | nil => rfl
  | cons c t =>
    simp only [stringToken, Mode.stringToken?]
    split
    · rename_i hMark
      subst hMark
      rfl
    · rename_i hMark
      split
      · rename_i hSlash
        subst hSlash
        cases t with
        | nil => rfl
        | cons d t =>
          by_cases hProtected : d = mark.char ∨ d = '\\'
          · have hSize : d.utf8Size = 1 := by
              rcases hProtected with rfl | rfl
              · cases mark <;> rfl
              · rfl
            have hPair : byteLength (('\\' :: d :: t).take 2) = 2 := by
              simp only [List.take_succ_cons, List.take_zero, byteLength, hSize]
              rfl
            simp only [hProtected, if_true, sized, Option.map_some, hPair]
          · simp only [hProtected, if_false, sized, Option.map_none]
      · rename_i hSlash
        have hRun := firstByte?_run (p := fun d => d = '\\' || d = mark.char)
          (q := fun d => d ≠ '\\' ∧ d ≠ mark.char) (by simp) (c :: t)
        rw [hRun, List.takeWhile_cons_of_pos (by simp [hMark, hSlash]), List.length_cons,
          Nat.add_comm]
        rfl

theorem attributeSign_eq (t : Text) :
    attributeSign t = some (sized t (Mode.attributeSign? t)) := by
  unfold attributeSign
  split
  · rfl
  · rfl
  · rfl
  · rfl
  · rfl
  · rfl
  · rfl
  · rename_i t hOther
    rw [Mode.attributeSign?.eq_8 _ hOther]
    rfl
  · rename_i t hOther
    rw [Mode.attributeSign?.eq_9 _ hOther]
    rfl
  · rw [Mode.attributeSign?.eq_10]
    · rw [withLead_zero_eq .identifier t identifier_eq, withLead_zero_eq .number t number_eq,
        sized_orElse]
      cases Mode.nonempty .identifier (identifierLength t) <;> rfl
    all_goals assumption

theorem attributeToken_eq (t : Text) :
    attributeToken t = some (sized t (Mode.attributeToken? t)) := by
  rw [attributeToken, trivia_eq, attributeSign_eq, Mode.attributeToken?, sized_orElse, sized_orElse,
    ← stringStart_eq]
  cases Mode.trivia? t with
  | some token => rfl
  | none => cases Mode.stringStart? t <;> rfl

theorem argumentToken_eq (t : Text) :
    argumentToken t = some (sized t (Mode.argumentToken? t)) := by
  rw [argumentToken, withLead_zero_eq .number t number_eq, selectorToken_eq, Mode.argumentToken?,
    sized_orElse, sized_orElse, ← stringStart_eq]
  cases Mode.stringStart? t with
  | some token => rfl
  | none => cases Mode.nonempty .number (numberLength t) <;> rfl

/-- The offset of the closing mark is the size of the text in front of it; without a mark it is that
of all the text. -/
theorem closeByte?_getD (t : Text) :
    (closeByte? t).getD (byteLength t) = byteLength (t.take (Mode.commentLength t)) := by
  fun_induction Mode.commentLength t with
  | case1 => rfl
  | case2 t => rfl
  | case3 c t hOther ih =>
    rw [closeByte?.eq_3 c t hOther, List.take_succ_cons, byteLength, byteLength, ← ih]
    cases closeByte? t <;> rfl

theorem commentToken_eq (t : Text) : commentToken t = sized t (Mode.commentToken? t) := by
  unfold commentToken
  split
  · rfl
  · rename_i hOther
    rw [Mode.commentToken?.eq_2 t hOther, closeByte?_getD, Mode.nonempty, Mode.withLead]
    simp only [byteLength_take_eq_zero_iff (Mode.commentLength_le t)]
    split
    · rfl
    · simp [sized]

/-- In every mode the size that is found is that of the characters which are recognised. -/
theorem recognize_eq (mode : Mode) (t : Text) :
    recognize mode t = some (sized t (mode.recognize? t)) := by
  match mode with
  | .selector => exact selectorToken_eq t
  | .string mark => exact congrArg some (stringToken_eq mark t)
  | .attribute => exact attributeToken_eq t
  | .argument => exact argumentToken_eq t
  | .comment => exact congrArg some (commentToken_eq t)

/-- The scanner that has got as far as a scan, with the tokens taken so far. -/
def Scanner.of (s : Scan) (tokens : List Token) : Scanner :=
  ⟨s.offset, (s.top :: s.below).reverse, tokens⟩

/-- The stack is not empty, and its last entry is the innermost mode. -/
theorem Scanner.top_of (s : Scan) (tokens : List Token) :
    (Scanner.of s tokens).top = some s.top := by
  have hLength : (Scanner.of s tokens).stack.length = s.below.length + 1 := by simp [Scanner.of]
  have hLast : (s.below.reverse ++ [s.top])[s.below.length]? = some s.top := by
    rw [List.getElem?_append_right (by simp)]
    simp
  simp only [Scanner.top, hLength, less?_add, Option.bind_eq_bind, Option.bind_some]
  rw [← hLast]
  simp [Scanner.of]

/-- At an offset between two characters, the token there is the one that is recognised. -/
theorem tokenAt_eq {source : Text} {s : Scan} {c : Char} {t : Text}
    (hRest : fromByte? source s.offset = some (c :: t)) (mode : Mode) :
    tokenAt mode source s.offset = some ((mode.recognize? (c :: t)).map fun token =>
      ⟨token.1, (c :: t).take token.2, s.offset⟩) := by
  simp only [tokenAt, hRest, recognize_eq, Option.bind_eq_bind, Option.bind_some]
  cases mode.recognize? (c :: t) with
  | none => rfl
  | some token => simp [sized, uptoByte?_take]

/-- A scanner takes the token that a scan takes, and its stack changes as the scan's. -/
theorem scanToken_eq {source : Text} {s : Scan} {c : Char} {t : Text}
    (hOffset : fromByte? source s.offset = some s.rest) (hRest : s.rest = c :: t)
    (tokens : List Token) :
    scanToken source (Scanner.of s tokens) =
      some ((s.take c t).map fun taken => Scanner.of taken.2 (tokens ++ [taken.1])) := by
  rw [hRest] at hOffset
  have hToken : tokenAt s.top.mode source (Scanner.of s tokens).offset = _ :=
    tokenAt_eq hOffset s.top.mode
  simp only [scanToken, Scanner.top_of, hToken, Option.bind_eq_bind, Option.bind_some]
  unfold Scan.take
  cases hKind : s.top.mode.recognize? (c :: t) with
  | none => simp [Scanner.of, hOffset, Except.map]
  | some token =>
    obtain ⟨kind, length⟩ := token
    obtain ⟨n, rfl⟩ := Nat.exists_eq_succ_of_ne_zero
      (Nat.ne_of_gt (Mode.length_of_recognize? hKind).1)
    simp only [Option.map_some, Nat.succ_eq_add_one, List.take_succ_cons, Nat.add_sub_cancel,
      Scan.shift]
    by_cases hClosed : s.top.mode.isClosedBy kind = true
    · simp only [hClosed, if_true]
      cases hBelow : s.below with
      | nil => simp [Scanner.of, hBelow, Except.map]
      | cons frame below => simp [Scanner.of, hBelow, Except.map]
    · simp only [hClosed]
      cases s.top.mode.opened? kind with
      | none => simp [Scanner.of, Except.map]
      | some mode => simp [Scanner.of, Except.map]

/-- Where nothing is left, the scanner stands at the end of the source; before that, it does not. -/
theorem byteLength_le_iff {source rest : Text} {offset : Nat}
    (hOffset : fromByte? source offset = some rest) : byteLength source ≤ offset ↔ rest = [] := by
  obtain ⟨front, rfl, rfl⟩ := fromByte?_eq_some_iff.mp hOffset
  rw [byteLength_append]
  cases rest with
  | nil => simp [byteLength]
  | cons c rest =>
    have hSize := c.utf8Size_pos
    simp only [byteLength, reduceCtorEq, iff_false]
    omega

/-- A step of a scan leaves the rest of the source behind the new offset. -/
theorem fromByte?_of_takes {source : Text} {s next : Scan} {token : Token}
    (hOffset : fromByte? source s.offset = some s.rest) (h : s.Takes token next) :
    fromByte? source next.offset = some next.rest := by
  obtain ⟨front, hSource, hFront⟩ := fromByte?_eq_some_iff.mp hOffset
  refine fromByte?_eq_some_iff.mpr ⟨front ++ token.text, ?_, ?_⟩
  · rw [hSource, h.rest_eq, List.append_assoc]
  · rw [byteLength_append, hFront, h.stop_eq, Token.stop, h.start_eq]
    rfl

/-- A scanner gets to where the scan gets. Each turn but the last takes a token, and no token is
empty. -/
theorem scanTokens_eq {source : Text} {turns : Nat} {s : Scan}
    (hOffset : fromByte? source s.offset = some s.rest) (tokens : List Token)
    (hTurns : s.rest.length < turns) :
    scanTokens source turns (Scanner.of s tokens) = some (s.run.map (tokens ++ ·)) := by
  induction turns generalizing s tokens with
  | zero => exact absurd hTurns (Nat.not_lt_zero _)
  | succ turns ih =>
    have hEnd : byteLength source ≤ (Scanner.of s tokens).offset ↔ s.rest = [] :=
      byteLength_le_iff hOffset
    rw [scanTokens]
    cases hRest : s.rest with
    | nil =>
      have hNone : s.step = none := by rw [Scan.step, hRest]
      have hStop : s.offset = byteLength source := by
        rw [hRest] at hOffset
        obtain ⟨front, rfl, hFront⟩ := fromByte?_eq_some_iff.mp hOffset
        rw [List.append_nil, hFront]
      rw [if_pos (hEnd.mpr hRest), Scan.run_of_step_eq_none hNone, Scan.finish]
      simp only [Scanner.top_of, Option.bind_eq_bind, Option.bind_some, ← hStop]
      split <;> rfl
    | cons c t =>
      have hStep : s.step = some (s.take c t) := by rw [Scan.step, hRest]
      have hNotEnd : ¬byteLength source ≤ (Scanner.of s tokens).offset := by simp [hEnd, hRest]
      rw [if_neg hNotEnd, scanToken_eq hOffset hRest]
      cases hTake : s.take c t with
      | error e =>
        rw [Scan.run_of_step_eq_error (hStep.trans (congrArg some hTake))]
        rfl
      | ok taken =>
        obtain ⟨token, next⟩ := taken
        have hOk : s.step = some (.ok (token, next)) := hStep.trans (congrArg some hTake)
        have hNext := fromByte?_of_takes hOffset (Scan.takes_of_step hOk)
        have hShorter := Scan.length_rest_of_step hOk
        have hRun := ih hNext (tokens ++ [token]) (by omega)
        rw [Scan.run_of_step_eq_ok hOk]
        refine hRun.trans (congrArg some ?_)
        cases next.run <;> simp [Except.map]

/-- Scanning has a value for every source. -/
theorem tokenize_eq (source : Text) : tokenize source = some (SelectorXPath.tokenize source) := by
  have hStart : fromByte? source (Scan.start source).offset = some (Scan.start source).rest := by
    cases source <;> rfl
  have hTurns : (Scan.start source).rest.length < source.length + 1 := Nat.lt_succ_self _
  refine (scanTokens_eq hStart [] hTurns).trans (congrArg some ?_)
  unfold SelectorXPath.tokenize
  cases (Scan.start source).run <;> rfl

end SelectorXPath.Checked
