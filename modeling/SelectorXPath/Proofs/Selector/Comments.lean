import SelectorXPath.Proofs.Selector.Parallel
import SelectorXPath.Proofs.Token.Moved

/-! Comments mean nothing. Between two tokens, and outside of strings and other comments, a comment
is scanned as such in every mode. The tokens in front of it stay as they are, since no token takes
up a slash, and the ones behind it are only moved. -/

namespace SelectorXPath

open SelectorXPath.Text

/-- A complete comment around a text. -/
def Text.commented (body : Text) : Text :=
  '/' :: '*' :: (body ++ ['*', '/'])

namespace Mode

variable {mode : Mode} {body : Text}

/-- Wherever no text is held, the opening mark of a comment is recognised. -/
theorem recognize?_commentStart (h : mode.holdsText = false) (rest : Text) :
    mode.recognize? ('/' :: '*' :: rest) = some (.commentStart, 2) := by
  cases mode with
  | string | comment => cases h
  | _ => rfl

/-- The opening mark of a comment opens one, and closes nothing. -/
theorem opened?_commentStart (h : mode.holdsText = false) :
    mode.opened? .commentStart = some .comment ∧ mode.isClosedBy .commentStart = false := by
  cases mode with
  | string | comment => cases h
  | _ => exact ⟨rfl, rfl⟩

/-- A comment goes on to the first mark that closes it, even if its text ends with an asterisk. -/
theorem commentLength_body (h : ¬ ['*', '/'] <:+: body) (rest : Text) :
    commentLength (body ++ '*' :: '/' :: rest) = body.length := by
  rw [commentLength_append_close, commentLength_of_not_infix body h]

/-- The text of a comment is one token, if there is any. -/
theorem recognize?_commentText (h : ¬ ['*', '/'] <:+: body) (hSome : body ≠ []) (rest : Text) :
    Mode.comment.recognize? (body ++ '*' :: '/' :: rest) = some (.commentText, body.length) := by
  have hLength := commentLength_body h rest
  rw [recognize?, commentToken?_of_ne, hLength, nonempty, withLead_eq_some_iff]
  · exact ⟨fun hZero => hSome (List.eq_nil_of_length_eq_zero hZero), rfl, (Nat.zero_add _).symm⟩
  · rintro more hText
    rw [hText, commentLength_close] at hLength
    exact hSome (List.eq_nil_of_length_eq_zero hLength.symm)

end Mode

namespace Scan

variable {s : Scan} {p rest body : Text} {kind : Token.Kind} {top : Frame} {below : List Frame}

/-- The closing mark leads back to the mode around the comment. -/
theorem step_commentEnd (hRest : s.rest = '*' :: '/' :: rest) (hMode : s.top.mode = .comment)
    (hBelow : s.below = top :: below) :
    ∃ t offset, s.step = some (.ok (t, ⟨rest, offset, top, below⟩)) ∧
      t.kind.isComment = true := by
  have hKind : s.top.mode.recognize? (['*', '/'] ++ rest) = some (.commentEnd, 2) := by
    rw [hMode]
    rfl
  exact ⟨_, _, step_of_text hRest (by simp) hKind
    (shift_of_closed (by rw [hMode]; rfl) hBelow), rfl⟩

/-- Where a comment has been opened, its text and the mark that closes it are passed over. -/
theorem exists_passes_commentText (hRest : s.rest = body ++ '*' :: '/' :: rest)
    (hBody : ¬ ['*', '/'] <:+: body) (hMode : s.top.mode = .comment)
    (hBelow : s.below = top :: below) :
    ∃ ts offset, Passes s ts ⟨rest, offset, top, below⟩ ∧ ∀ t ∈ ts, t.kind.isComment = true := by
  by_cases hSome : body = []
  · subst hSome
    obtain ⟨t, offset, hLast, hKind⟩ := step_commentEnd hRest hMode hBelow
    exact ⟨[t], offset, .step hLast .done, by simp [hKind]⟩
  · have hFound := Mode.recognize?_commentText hBody hSome rest
    rw [← hMode] at hFound
    have hText := step_of_text hRest hSome hFound
      (shift_of_kept (by rw [hMode]; rfl) (by rw [hMode]; rfl))
    obtain ⟨t, offset, hLast, hKind⟩ :=
      step_commentEnd (s := ⟨'*' :: '/' :: rest, _, s.top, s.below⟩) rfl hMode hBelow
    refine ⟨_, offset, .step hText (.step hLast .done), ?_⟩
    rintro u (_ | ⟨_, _ | ⟨_, ⟨⟩⟩⟩)
    · rfl
    · exact hKind

/-- A comment is passed over, and the modes are the same again. -/
theorem exists_passes_comment (hMode : s.top.mode.holdsText = false)
    (hBody : ¬ ['*', '/'] <:+: body) (hRest : s.rest = commented body ++ rest) :
    ∃ ts offset, Passes s ts ⟨rest, offset, s.top, s.below⟩ ∧
      ∀ t ∈ ts, t.kind.isComment = true := by
  have hText : s.rest = ['/', '*'] ++ (body ++ '*' :: '/' :: rest) := by
    rw [hRest, commented]
    simp
  obtain ⟨hOpened, hOpen⟩ := Mode.opened?_commentStart hMode
  have hStart := step_of_text hText (by simp) (Mode.recognize?_commentStart hMode _)
    (shift_eq_ok_iff.mpr (Or.inr ⟨hOpen, Or.inl ⟨_, hOpened, rfl, rfl⟩⟩))
  obtain ⟨ts, offset, hInside, hKinds⟩ := exists_passes_commentText
    (s := ⟨body ++ '*' :: '/' :: rest, _, ⟨.comment, s.offset⟩, s.top :: s.below⟩)
    rfl hBody rfl rfl
  refine ⟨_, offset, .step hStart hInside, ?_⟩
  rintro u (_ | ⟨_, hu⟩)
  · rfl
  · exact hKinds u hu

end Scan

namespace Selector

open Scan

variable {source body : Text} {front tokens : List Token} {s : Scan}

/-- With a comment between two of its tokens a source has the same tokens, but for those of the
comment; the tokens behind it are moved. -/
theorem tokenize_commented (hTokens : tokenize source = .ok tokens)
    (hPasses : Passes (start source) front s) (hMode : s.top.mode.holdsText = false)
    (hBody : ¬ ['*', '/'] <:+: body) :
    ∃ back comment offset n, tokens = front ++ back ++ [⟨.eof, [], offset⟩] ∧
      tokenize (front.flatMap Token.text ++ (commented body ++ s.rest)) =
        .ok (front ++ comment ++ back.map (Token.moved n) ++ [⟨.eof, [], offset + n⟩]) ∧
      ∀ t ∈ comment, t.kind.isComment = true := by
  obtain ⟨more, hMore, rfl⟩ : ∃ more, s.run = .ok more ∧ tokens = front ++ more := by
    rw [tokenize, hPasses.run_map] at hTokens
    cases hRun : s.run with
    | error e =>
        rw [hRun] at hTokens
        cases hTokens
    | ok more =>
        rw [hRun] at hTokens
        exact ⟨more, rfl, (Except.ok.inj hTokens).symm⟩
  obtain ⟨back, last, -, -, -, rfl⟩ := passes_of_run hMore
  have hFront : Passes (start (front.flatMap Token.text ++ (commented body ++ s.rest))) front
      { s with rest := commented body ++ s.rest } :=
    hPasses.swap .done hMode (by rintro c ⟨⟩; decide) (by rintro c ⟨⟩ hBlank; cases hBlank)
  obtain ⟨comment, offset, hComment, hKinds⟩ :=
    exists_passes_comment (s := { s with rest := commented body ++ s.rest }) hMode hBody rfl
  have hBack := (moved_of_rest s (byteLength (comment.flatMap Token.text))).run_ok hMore
  rw [← hComment.offset_eq] at hBack
  refine ⟨back, comment, last.offset, byteLength (comment.flatMap Token.text),
    (List.append_assoc ..).symm, ((hFront.trans hComment).run_eq hBack).trans ?_, hKinds⟩
  rw [List.map_append, ← List.append_assoc]
  rfl

/-- Comments are transparent. A complete comment between two tokens of a source that is scanned, but
not inside of a string or of another comment, leaves what is read as it was, or the reason why
nothing is. -/
theorem parse_commented (hTokens : tokenize source = .ok tokens)
    (hPasses : Passes (start source) front s) (hMode : s.top.mode.holdsText = false)
    (hBody : ¬ ['*', '/'] <:+: body) (limit : Nat) :
    (∃ list list', parse source limit = .ok list ∧
      parse (front.flatMap Token.text ++ (commented body ++ s.rest)) limit = .ok list' ∧
      listsAgree list list' = true) ∨
    ∃ fault fault', parse source limit = .error (.grammatical fault) ∧
      parse (front.flatMap Token.text ++ (commented body ++ s.rest)) limit =
        .error (.grammatical fault') ∧
      fault'.expected = fault.expected := by
  obtain ⟨back, comment, offset, n, rfl, hTokens', hKinds⟩ :=
    tokenize_commented hTokens hPasses hMode hBody
  have hVisible : Mode.uncommented (front ++ comment ++ back.map (Token.moved n)) =
      Mode.uncommented front ++ (Mode.uncommented back).map (Token.moved n) := by
    have hNone : Mode.uncommented comment = [] := by
      rw [Mode.uncommented, List.filter_eq_nil_iff]
      intro t ht
      simp [hKinds t ht]
    rw [← Mode.uncommented_moved, Mode.uncommented, List.filter_append, List.filter_append]
    rw [Mode.uncommented] at hNone
    rw [hNone, List.append_nil]
    rfl
  have hParallel : TokensParallel (fun _ _ => True) (Mode.uncommented (front ++ back))
      (Mode.uncommented (front ++ comment ++ back.map (Token.moved n))) := by
    rw [hVisible, Mode.uncommented, List.filter_append]
    refine List.rel_append ?_ ?_
    · exact List.forall₂_same.mpr fun t _ => ⟨rfl, rfl, trivial⟩
    · rw [List.forall₂_map_right_iff]
      exact List.forall₂_same.mpr fun t _ => ⟨rfl, rfl, trivial⟩
  rcases parse_parallel (fun _ _ _ _ => trivial) hTokens hTokens' hParallel trivial limit with
    ⟨list, list', hList, hList', hSame⟩ | ⟨fault, fault', hFault, hFault', -, hExpected⟩
  · refine Or.inl ⟨list, list', hList, hList', ?_⟩
    rw [listsAgree_iff, listUnplaced_of_parallel hSame]
  · exact Or.inr ⟨fault, fault', hFault, hFault', hExpected⟩

/-- A comment whose text begins and ends like one of its marks, between the number and the letter of
an argument. -/
theorem parse_commented_of_argument :
    (parse ":nth-child(2n)".toList 1).isOk = true ∧
      ∃ list list', parse ":nth-child(2n)".toList 1 = .ok list ∧
        parse ":nth-child(2/*/*n*/n)".toList 1 = .ok list' ∧ listsAgree list list' = true := by
  have hOk : (parse ":nth-child(2n)".toList 1).isOk = true := by decide +kernel
  have hScans : (tokenize ":nth-child(2n)".toList).isOk = true := by decide +kernel
  obtain ⟨tokens, hTokens⟩ := exists_ok_of_isOk hScans
  have hName : (start ":nth-child(2n)".toList).step =
      some (.ok (⟨.pseudoClass, ":nth-child".toList, 0⟩,
        ⟨"(2n)".toList, 10, ⟨.selector, 0⟩, []⟩)) := by
    decide +kernel
  have hOpen : (⟨"(2n)".toList, 10, ⟨.selector, 0⟩, []⟩ : Scan).step =
      some (.ok (⟨.parenthesesStart, ['('], 10⟩,
        ⟨"2n)".toList, 11, ⟨.argument, 10⟩, [⟨.selector, 0⟩]⟩)) := by
    decide +kernel
  have hNumber : (⟨"2n)".toList, 11, ⟨.argument, 10⟩, [⟨.selector, 0⟩]⟩ : Scan).step =
      some (.ok (⟨.number, ['2'], 11⟩, ⟨"n)".toList, 12, ⟨.argument, 10⟩, [⟨.selector, 0⟩]⟩)) := by
    decide +kernel
  have hPasses := Passes.step hName (.step hOpen (.step hNumber .done))
  have hBody : ¬ ['*', '/'] <:+: "/*n".toList := by decide
  refine ⟨hOk, ?_⟩
  rcases parse_commented hTokens hPasses rfl hBody 1 with hSame | ⟨fault, -, hFault, -⟩
  · exact hSame
  · rw [hFault] at hOk
    cases hOk

end Selector

end SelectorXPath
