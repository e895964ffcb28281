import SelectorXPath.Proofs.Token.Faults
import SelectorXPath.Proofs.Token.Seams

/-! What an unterminated source lacks. A scan that comes to the end of its source inside of some
modes has taken the tokens that it would have taken anyway, so with the marks that close these modes
put behind, from the inside out, the source is scanned: the marks do not go into the last token, and
each of them closes its mode. -/

namespace SelectorXPath

open SelectorXPath.Text

namespace Mode

open Token

variable {mode inner : Mode} {c : Char} {t : Text} {kind : Kind} {n : Nat}

/-- The token that closes a mode. The outermost one is closed by the end of the source. -/
def closer : Mode → Kind
  | .selector => .eof
  | .string mark => .stringEnd mark
  | .attribute => .attributeEnd
  | .argument => .parenthesesEnd
  | .comment => .commentEnd

/-- Every mode but the outermost has a token that closes it. -/
theorem isClosedBy_closer (h : mode ≠ .selector) : mode.isClosedBy mode.closer = true := by
  cases mode with
  | selector => exact absurd rfl h
  | string mark => cases mark <;> rfl
  | _ => rfl

/-- The mark that closes a mode is a token of its own, whatever stands behind it. -/
theorem recognize?_closer (h : mode ≠ .selector) (rest : Text) :
    mode.recognize? (mode.closer.sign ++ rest) = some (mode.closer, mode.closer.sign.length) := by
  cases mode with
  | selector => exact absurd rfl h
  | string mark =>
      show stringToken? mark (mark.char :: rest) = _
      rw [stringToken?_cons, if_pos rfl]
      rfl
  | _ => rfl

/-- So is the mark that opens one. -/
theorem recognize?_opener (h : mode.recognize? t = some (kind, n))
    (hOpened : mode.opened? kind = some inner) (rest : Text) :
    mode.recognize? (kind.sign ++ rest) = some (kind, kind.sign.length) := by
  have hOpener := opener?_of_opened? hOpened
  cases inner with
  | selector => cases hOpener
  | string mark =>
      cases hOpener
      cases mode with
      | selector =>
          have hKind := (form_of_recognize? h).mem_kinds
          simp [kinds, selectorKinds] at hKind
      | string | comment => cases hOpened
      | «attribute» | argument => cases mark <;> rfl
  | «attribute» | argument | comment =>
      cases hOpener
      cases mode <;> first | rfl | cases hOpened

/-- A token that opens a mode is the same whatever stands behind the text. -/
theorem recognize?_append_opened (h : mode.recognize? t = some (kind, n))
    (hOpened : mode.opened? kind = some inner) (more : Text) :
    mode.recognize? (t ++ more) = some (kind, n) := by
  obtain ⟨⟨rest, rfl⟩, -⟩ := (form_of_recognize? h).hasSign
  rw [List.append_assoc, recognize?_opener h hOpened, ← recognize?_opener h hOpened rest, h]

/-- A token of a string or a comment does not go on into the mark that closes it. -/
theorem recognize?_append_closer (h : mode.recognize? t = some (kind, n))
    (hText : mode.holdsText = true) (hOpen : mode.isClosedBy kind = false) (rest : Text) :
    mode.recognize? (t ++ (mode.closer.sign ++ rest)) = some (kind, n) := by
  obtain ⟨c, t, rfl, -⟩ := recognize?_take h
  cases mode with
  | selector | «attribute» | argument => cases hText
  | string mark =>
      show stringToken? mark (c :: (t ++ mark.char :: rest)) = _
      have hFound : stringToken? mark (c :: t) = some (kind, n) := h
      rw [stringToken?_cons] at hFound ⊢
      by_cases hMark : c = mark.char
      · rw [if_pos hMark] at hFound
        cases hFound
        cases mark <;> cases hOpen
      rw [if_neg hMark] at hFound ⊢
      by_cases hSlash : c = '\\'
      · rw [if_pos hSlash] at hFound ⊢
        cases t with
        | nil => cases mark <;> cases hFound
        | cons d t => exact hFound
      · rw [if_neg hSlash] at hFound ⊢
        rw [takeWhile_swap (u := []), List.append_nil]
        · exact hFound
        · rw [List.append_nil]
          exact length_takeWhile_le t
        · rintro _ _ ⟨⟩
          simp
  | comment =>
      show commentToken? (c :: t ++ '*' :: '/' :: rest) = _
      have hFound : commentToken? (c :: t) = some (kind, n) := h
      by_cases hClose : c = '*' ∧ t.head? = some '/'
      · obtain ⟨rfl, hSlash⟩ := hClose
        obtain ⟨more, rfl⟩ := List.head?_eq_some_iff.mp hSlash
        cases hFound
        cases hOpen
      · rw [commentToken?_cons t hClose] at hFound
        rw [List.cons_append, commentToken?_cons _ (not_close_append rest hClose),
          commentLength_append_close, hFound]

/-- What opens a string or a comment is nothing that a token in front of it could take up. -/
theorem isMark_of_opened? (h : mode.opened? kind = some inner) (hText : inner.holdsText = true)
    (hSign : kind.sign <+: t) : ∀ c ∈ t.head?, isMark c = true ∧ isBlank c = false := by
  have hOpener := opener?_of_opened? h
  obtain ⟨rest, rfl⟩ := hSign
  intro c hc
  cases inner with
  | string mark =>
      cases hOpener
      cases hc
      cases mark <;> decide
  | comment =>
      cases hOpener
      cases hc
      decide
  | _ => cases hText

/-- Nor is what closes the other modes. -/
theorem isMark_of_closer (h : mode ≠ .selector) (hText : mode.holdsText = false)
    (hSign : mode.closer.sign <+: t) : ∀ c ∈ t.head?, isMark c = true ∧ isBlank c = false := by
  obtain ⟨rest, rfl⟩ := hSign
  intro c hc
  cases mode with
  | selector => exact absurd rfl h
  | string | comment => cases hText
  | _ =>
      cases hc
      decide

/-- What closes modes, given from the inside out. -/
def closers (modes : List Mode) : Text :=
  modes.flatMap fun mode => mode.closer.sign

/-- The tokens that close modes, one behind the other from an offset on. -/
def closings : Nat → List Mode → List Token
  | _, [] => []
  | offset, mode :: outer =>
    ⟨mode.closer, mode.closer.sign, offset⟩ ::
      closings (offset + byteLength mode.closer.sign) outer

/-- Of two rows of modes, one inside of the other, the inner row is closed first. -/
theorem closers_append (modes modes' : List Mode) :
    closers (modes ++ modes') = closers modes ++ closers modes' :=
  List.flatMap_append

/-- Arguments inside of each other are closed by as many parentheses. -/
theorem closers_arguments (n : Nat) :
    closers (List.replicate n .argument) = List.replicate n ')' := by
  induction n with
  | zero => rfl
  | succ n ih => exact congrArg (')' :: ·) ih

/-- Modes in order are closed by a quotation mark or the end of a comment, then a bracket, then a
parenthesis for every argument. -/
theorem closers_of_inOrder {modes : List Mode} (h : InOrder modes.reverse) :
    ∃ text bracket : Text,
      closers modes = text ++ (bracket ++ List.replicate (modes.count .argument) ')') ∧
      (text = [] ∨ text = ['*', '/'] ∨ ∃ mark : QuoteMark, text = [mark.char]) ∧
      (bracket = [] ∨ bracket = [']']) := by
  obtain ⟨n, brackets, texts, hModes, hBrackets, hTexts⟩ := h
  obtain rfl : modes = texts.reverse ++ brackets.reverse ++ List.replicate n .argument := by
    rw [← List.reverse_reverse modes, hModes]
    simp
  have hBracket : closers brackets.reverse = [] ∨ closers brackets.reverse = [']'] :=
    hBrackets.imp (by rintro rfl; rfl) (by rintro rfl; rfl)
  have hNone : (texts.reverse ++ brackets.reverse).count .argument = 0 := by
    rcases hBrackets with rfl | rfl <;> rcases hTexts with rfl | ⟨mode, hText, rfl⟩
    · rfl
    · cases mode <;> cases hText <;> rfl
    · rfl
    · cases mode <;> cases hText <;> rfl
  refine ⟨closers texts.reverse, closers brackets.reverse, ?_, ?_, hBracket⟩
  · rw [List.count_append, hNone, List.count_replicate_self, Nat.zero_add, closers_append,
      closers_append, closers_arguments, List.append_assoc]
  · rcases hTexts with rfl | ⟨mode, hText, rfl⟩
    · exact Or.inl rfl
    · cases mode with
      | string mark => exact Or.inr (Or.inr ⟨mark, rfl⟩)
      | comment => exact Or.inr (Or.inl rfl)
      | _ => cases hText

/-- No mode inside of another is the outermost, so each of them has a token that closes it. -/
theorem ne_selector_of_inOrder {modes : List Mode} (h : InOrder modes) :
    ∀ mode ∈ modes, mode ≠ .selector := by
  obtain ⟨n, brackets, texts, rfl, hBrackets, hTexts⟩ := h
  have hBrackets' : ∀ mode ∈ brackets, mode ≠ .selector := by
    rcases hBrackets with rfl | rfl <;> simp
  have hTexts' : ∀ mode ∈ texts, mode ≠ .selector := by
    rcases hTexts with rfl | ⟨mode, hText, rfl⟩
    · simp
    · cases mode with
      | selector => cases hText
      | _ => simp
  have hArguments : ∀ mode ∈ List.replicate n Mode.argument, mode ≠ .selector := by
    intro mode hMode
    rw [(List.mem_replicate.mp hMode).2]
    nofun
  exact List.forall_mem_append.mpr ⟨hArguments, List.forall_mem_append.mpr ⟨hBrackets', hTexts'⟩⟩

end Mode

namespace Scan

open Mode

variable {s s' next : Scan} {token : Token} {ts : List Token} {source more : Text}

/-- One step is the same with more text behind all of the source, if the same token is found. -/
theorem step_append (hStep : s.step = some (.ok (token, next)))
    (hFound : ∀ n, s.top.mode.recognize? s.rest = some (token.kind, n) →
      s.top.mode.recognize? (s.rest ++ more) = some (token.kind, n)) :
    ({ s with rest := s.rest ++ more } : Scan).step =
      some (.ok (token, { next with rest := next.rest ++ more })) := by
  have hTakes := takes_of_step hStep
  obtain ⟨c, t, length, hText, hKind, hToken, hShift, hRest, hOffset⟩ := step_eq_some_ok hStep
  obtain ⟨kind, text, offset⟩ := token
  obtain ⟨nextRest, nextOffset, top, below⟩ := next
  obtain rfl : offset = s.offset := hTakes.start_eq
  obtain rfl : nextOffset = (⟨kind, text, s.offset⟩ : Token).stop := hOffset
  have hLength : text.length = length := by
    obtain ⟨hPos, hInside⟩ := length_of_recognize? hKind
    have hText := congrArg (fun t => t.text.length) hToken
    simp only [List.length_cons, List.length_take] at hText hInside
    omega
  have hWhole : s.rest ++ more = text ++ (nextRest ++ more) := by
    rw [hTakes.rest_eq, List.append_assoc]
  rw [← hText, ← hLength] at hKind
  have hKind' := hFound _ hKind
  rw [hWhole] at hKind' ⊢
  exact step_of_text (s := { s with rest := text ++ (nextRest ++ more) }) rfl hTakes.text_ne_nil
    hKind' hShift

/-- Where a string or a comment is open and stays open. -/
theorem Passes.append_inside (h : Passes s ts s') (hText : s.top.mode.holdsText = true)
    (hOpen : ∀ t ∈ ts, s.top.mode.isClosedBy t.kind = false) :
    s'.top = s.top ∧ ∀ rest, more = s.top.mode.closer.sign ++ rest →
      Passes { s with rest := s.rest ++ more } ts { s' with rest := s'.rest ++ more } := by
  induction h with
  | done => exact ⟨rfl, fun _ _ => .done⟩
  | @step s next _ token ts hStep _ ih =>
      obtain ⟨hToken, hOthers⟩ := List.forall_mem_cons.mp hOpen
      obtain ⟨-, -, -, -, -, -, hShift, -⟩ := step_eq_some_ok hStep
      have hTop := top_of_shift hShift hText (Bool.eq_false_iff.mp hToken)
      rw [← hTop] at hText hOthers
      obtain ⟨hLast, hPasses⟩ := ih hText hOthers
      refine ⟨hLast.trans hTop, fun rest hMore => .step (step_append hStep fun n hFound => ?_) ?_⟩
      · rw [hMore]
        exact recognize?_append_closer hFound (hTop ▸ hText) hToken rest
      · exact hPasses rest (by rw [hTop, hMore])

/-- No string and no comment lies below another mode. -/
theorem holdsText_of_closed (h : Passes (start source) ts s)
    (hBelow : s.below = s'.top :: s'.below) : s'.top.mode.holdsText = false := by
  obtain ⟨inner, hHolds⟩ := (holds_start source).passes h
  have hOpened := hHolds.opened
  rw [hBelow] at hOpened
  obtain ⟨⟨t, -, -, hInner⟩, -⟩ := List.isChain_cons_cons.mp hOpened
  exact Mode.Opens.holdsText_eq_false ⟨t.kind, hInner⟩

/-- Where a scan stands in a string or a comment, it has taken the token that opened it, and since
then no token that closes it. -/
theorem Passes.exists_opening (h : Passes (start source) ts s)
    (hText : s.top.mode.holdsText = true) :
    ∃ front s₀ opening s₁ inside, ts = front ++ opening :: inside ∧
      Passes (start source) front s₀ ∧ s₀.step = some (.ok (opening, s₁)) ∧
      s₀.top.mode.opened? opening.kind = some s₁.top.mode ∧ Passes s₁ inside s ∧
      s₁.top = s.top ∧ ∀ t ∈ inside, s₁.top.mode.isClosedBy t.kind = false := by
  induction ts using List.reverseRecOn generalizing s with
  | nil =>
      cases h
      cases hText
  | append_singleton ts t ih =>
      obtain ⟨s₀, hFront, hBack⟩ := h.cut
      cases hBack with
      | step hStep hDone =>
          cases hDone
          obtain ⟨c, text, length, -, -, -, hShift, -⟩ := step_eq_some_ok hStep
          obtain ⟨-, hBelow⟩ | ⟨hClosed, ⟨mode, hOpened, hTop, -⟩ | ⟨-, hTop, -⟩⟩ :=
            shift_eq_ok_iff.mp hShift
          · rw [holdsText_of_closed hFront hBelow] at hText
            cases hText
          · have hMode : s.top.mode = mode := congrArg Frame.mode hTop
            rw [← hMode] at hOpened
            exact ⟨ts, s₀, t, s, [], rfl, hFront, hStep, hOpened, .done, rfl, by simp⟩
          · obtain ⟨front, s₁, opening, s₂, inside, rfl, hPasses, hOpening, hOpened, hInside, hSame,
              hOpen⟩ := ih hFront (hTop ▸ hText)
            refine ⟨front, s₁, opening, s₂, inside ++ [t], by simp, hPasses, hOpening, hOpened,
              hInside.trans (.step hStep .done), hSame.trans hTop.symm, ?_⟩
            rw [List.forall_mem_append, List.forall_mem_singleton]
            exact ⟨hOpen, hSame ▸ hClosed⟩

/-- A scan that stands outside of strings and comments has taken the same tokens with other text
behind, if this begins with a mark. -/
theorem Passes.append_mark (h : Passes s ts s') (hMode : s'.top.mode.holdsText = false)
    (hMark : ∀ c ∈ more.head?, isMark c = true ∧ isBlank c = false) :
    Passes { s with rest := ts.flatMap Token.text ++ more } ts { s' with rest := more } :=
  h.swap .done hMode (fun c hc => (hMark c hc).1) fun c hc hBlank => by
    rw [(hMark c hc).2] at hBlank
    cases hBlank

/-- The mark that closes the innermost mode, and anything behind it, leave the tokens of a source as
they are that the scan has come to the end of. -/
theorem Passes.append_closer (h : Passes (start source) ts s) (hRest : s.rest = [])
    (hMode : s.top.mode ≠ .selector) (hMore : s.top.mode.closer.sign <+: more) :
    Passes (start (source ++ more)) ts { s with rest := more } := by
  cases hText : s.top.mode.holdsText with
  | false =>
      have hPasses := h.append_mark hText (isMark_of_closer hMode hText hMore)
      rw [← h.text_eq hRest] at hPasses
      exact hPasses
  | true =>
      obtain ⟨front, s₀, opening, s₁, inside, rfl, hFront, hStep, hOpened, hInside, hSame, hOpen⟩ :=
        h.exists_opening hText
      rw [← hSame] at hText hMore
      obtain ⟨c, t, length, hText₀, hKind, -⟩ := step_eq_some_ok hStep
      have hSign : opening.kind.sign <+: s₀.rest ++ more := by
        rw [hText₀]
        exact (form_of_recognize? hKind).hasSign.1.trans (List.prefix_append _ _)
      have hFirst := hFront.append_mark (Mode.Opens.holdsText_eq_false ⟨_, hOpened⟩)
        (isMark_of_opened? hOpened hText hSign)
      have hSecond := step_append hStep fun n hFound =>
        recognize?_append_opened hFound hOpened more
      obtain ⟨rest, hRest'⟩ := hMore
      have hThird := (hInside.append_inside hText hOpen).2 rest hRest'.symm
      rw [hRest, List.nil_append] at hThird
      have hSource : source ++ more = front.flatMap Token.text ++ (s₀.rest ++ more) := by
        rw [← List.append_assoc, ← hFront.rest_eq]
        rfl
      rw [hSource]
      exact hFirst.trans (.step hSecond hThird)

/-- The marks that close all modes but the last one are taken one by one. -/
theorem passes_closings {inner : List Frame} {base : Frame}
    (hInner : ∀ f ∈ inner, f.mode ≠ .selector) (hFrames : s.top :: s.below = inner ++ [base])
    (hRest : s.rest = closers (inner.map Frame.mode)) :
    Passes s (closings s.offset (inner.map Frame.mode))
      ⟨[], s.offset + byteLength (closers (inner.map Frame.mode)), base, []⟩ := by
  induction inner generalizing s with
  | nil =>
      obtain ⟨rest, offset, top, below⟩ := s
      obtain ⟨rfl, rfl⟩ := List.cons.inj hFrames
      obtain rfl : rest = [] := hRest
      exact .done
  | cons f inner ih =>
      obtain ⟨hMode, hOthers⟩ := List.forall_mem_cons.mp hInner
      obtain ⟨rfl, hBelow⟩ := List.cons.inj hFrames
      obtain ⟨frame, below, hNext⟩ : ∃ frame below, frame :: below = inner ++ [base] := by
        cases inner with
        | nil => exact ⟨base, [], rfl⟩
        | cons f inner => exact ⟨f, inner ++ [base], rfl⟩
      have hSome : s.top.mode.closer.sign ≠ [] := by
        cases hTop : s.top.mode with
        | selector => exact absurd hTop hMode
        | _ => exact List.cons_ne_nil _ _
      have hText : s.rest = s.top.mode.closer.sign ++ closers (inner.map Frame.mode) := hRest
      have hStep := step_of_text hText hSome (recognize?_closer hMode _)
        (shift_of_closed (isClosedBy_closer hMode) (hBelow.trans hNext.symm))
      have hMore := ih (s := ⟨closers (inner.map Frame.mode),
        s.offset + byteLength s.top.mode.closer.sign, frame, below⟩) hOthers hNext rfl
      rw [List.map_cons, closers, List.flatMap_cons, byteLength_append, ← Nat.add_assoc]
      exact .step hStep hMore

end Scan

/-- Unterminated means that only closing marks are missing. A scan that fails so has come to the end
of the source with some tokens, and stands in the mode that it reports. With the marks behind the
source that close the open modes from the inside out (the one of a string or a comment, that of
brackets, and a parenthesis for every argument) it succeeds: the same tokens are followed by these
marks and the end of the source. -/
theorem tokenize_completed {source : Text} {offset : Nat} {mode : Mode}
    (h : tokenize source = .error ⟨offset, .unterminated mode⟩) :
    ∃ ts s inner modes, Scan.Passes (.start source) ts s ∧ s.rest = [] ∧ s.top = ⟨mode, offset⟩ ∧
      s.top :: s.below = inner ++ [⟨.selector, 0⟩] ∧ modes = inner.map Frame.mode ∧
      (∃ text bracket : Text, Mode.closers modes =
          text ++ (bracket ++ List.replicate (modes.count .argument) ')') ∧
        (text = [] ∨ text = ['*', '/'] ∨ ∃ mark : QuoteMark, text = [mark.char]) ∧
        (bracket = [] ∨ bracket = [']'])) ∧
      tokenize (source ++ Mode.closers modes) =
        .ok (ts ++ Mode.closings (byteLength source) modes ++
          [⟨.eof, [], byteLength (source ++ Mode.closers modes)⟩]) := by
  obtain ⟨ts, s, hPasses, ⟨hNone, hRun⟩ | ⟨e, hError, hRun⟩⟩ := Scan.exists_passes (.start source)
  · have hRest := Scan.step_eq_none_iff.mp hNone
    obtain ⟨hMode, hTop⟩ : s.top.mode ≠ .selector ∧ s.top = ⟨mode, offset⟩ := by
      rw [← tokenize, h, Scan.finish] at hRun
      split at hRun
      · cases hRun
      · rename_i hMode
        obtain ⟨rfl, hFault⟩ := LexError.mk.inj (Except.error.inj hRun)
        obtain rfl := LexFault.unterminated.inj hFault
        exact ⟨hMode, rfl⟩
    obtain ⟨inner, hHolds⟩ := (Scan.holds_start source).passes hPasses
    have hOrder := hHolds.wellStacked.inOrder
    rw [List.map_reverse] at hOrder
    have hInner : ∀ f ∈ inner, f.mode ≠ .selector := fun f hf =>
      Mode.ne_selector_of_inOrder hOrder _ (List.mem_reverse.mpr (List.mem_map_of_mem hf))
    have hOffset : s.offset = byteLength source := by
      rw [hPasses.offset_eq, ← hPasses.text_eq hRest]
      exact Nat.zero_add _
    have hSign : s.top.mode.closer.sign <+: Mode.closers (inner.map Frame.mode) := by
      cases inner with
      | nil => exact absurd (congrArg Frame.mode (List.cons.inj hHolds.frames).1) hMode
      | cons f inner =>
          rw [(List.cons.inj hHolds.frames).1]
          exact List.prefix_append _ _
    have hSame := hPasses.append_closer hRest hMode hSign
    have hClosings := Scan.passes_closings (s := { s with rest := Mode.closers _ }) hInner
      hHolds.frames rfl
    refine ⟨ts, s, inner, _, hPasses, hRest, hTop, hHolds.frames, rfl,
      Mode.closers_of_inOrder hOrder, ?_⟩
    rw [byteLength_append, ← hOffset]
    exact (hSame.trans hClosings).run_eq (Scan.run_of_step_eq_none rfl)
  · rw [← tokenize, h] at hRun
    cases hRun
    exact absurd rfl (Scan.fault_ne_unterminated hError mode)

/-- A string that ends with an escaped backslash, in brackets, between two pairs of parentheses. -/
theorem tokenize_completed_of_escape :
    tokenize ":not(a,:not([b='c\\\\".toList = .error ⟨15, .unterminated (.string .single)⟩ ∧
      ∃ ts modes, modes.head? = some (.string .single) ∧
        tokenize (":not(a,:not([b='c\\\\".toList ++ Mode.closers modes) =
          .ok (ts ++ Mode.closings (byteLength ":not(a,:not([b='c\\\\".toList) modes ++
            [⟨.eof, [], byteLength (":not(a,:not([b='c\\\\".toList ++ Mode.closers modes)⟩]) := by
  have hError : tokenize ":not(a,:not([b='c\\\\".toList =
      .error ⟨15, .unterminated (.string .single)⟩ := by decide +kernel
  obtain ⟨ts, s, inner, modes, -, -, hTop, hFrames, rfl, -, hOk⟩ := tokenize_completed hError
  refine ⟨hError, ts, _, ?_, hOk⟩
  cases inner with
  | nil =>
      rw [hTop] at hFrames
      cases hFrames
  | cons f inner =>
      rw [← (List.cons.inj hFrames).1, hTop]
      rfl

end SelectorXPath
