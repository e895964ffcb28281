import SelectorXPath.Proofs.Token.Moved

/-! A source that is scanned by itself is scanned in the same way between parentheses. Both scans
have the same modes open, but for the outermost: numbers and strings mean something between
parentheses, and the parenthesis behind the source closes. -/

namespace SelectorXPath

open SelectorXPath.Text

namespace Mode

/-- The outermost mode is opened by nothing. -/
theorem opened?_ne_selector {mode inner : Mode} {kind : Token.Kind}
    (h : mode.opened? kind = some inner) : inner ≠ .selector := by
  rintro rfl
  unfold opened? at h
  split at h <;> cases h

/-- Between parentheses the tokens of a selector open and close what they do outside of all
brackets, where nothing may be closed. -/
theorem argument_of_selector {kind : Token.Kind} (h : Mode.selector.isClosedBy kind = false) :
    Mode.argument.isClosedBy kind = false ∧
      Mode.argument.opened? kind = Mode.selector.opened? kind := by
  cases kind with
  | parenthesesEnd => cases h
  | _ => exact ⟨rfl, rfl⟩

end Mode

namespace Scan

/-- The modes that are open inside of the outermost one are the same. The first scan is at its
outermost mode, and the second one between parentheses. -/
structure Nested (n : Nat) (outer : List Frame) (s s' : Scan) : Prop where
  offset : s'.offset = s.offset + n
  frames : ∃ inner bottom, bottom.mode = .selector ∧ (∀ f ∈ inner, f.mode ≠ .selector) ∧
    s.top :: s.below = inner ++ [bottom] ∧
    s'.top :: s'.below = inner.map (Frame.moved n) ++ outer

variable {n openedAt : Nat} {below : List Frame} {s s' next : Scan} {u : Text} {token : Token}

/-- The next token is recognised in the same way. -/
theorem Nested.recognize? (h : Nested n (⟨.argument, openedAt⟩ :: below) s s') {c : Char} {t : Text}
    {kind : Token.Kind} {length : Nat}
    (hKind : s.top.mode.recognize? (c :: t) = some (kind, length)) :
    s'.top.mode.recognize? (c :: t) = some (kind, length) := by
  obtain ⟨inner, bottom, hBottom, -, hFrames, hFrames'⟩ := h.frames
  cases inner with
  | nil =>
      obtain ⟨hTop, -⟩ := List.cons.inj hFrames
      obtain ⟨hTop', -⟩ := List.cons.inj hFrames'
      rw [hTop, hBottom] at hKind
      rw [hTop']
      exact Mode.argumentToken?_of_selectorToken? hKind
  | cons f inner =>
      obtain ⟨hTop, -⟩ := List.cons.inj hFrames
      obtain ⟨hTop', -⟩ := List.cons.inj hFrames'
      rw [hTop] at hKind
      rw [hTop']
      exact hKind

/-- A token that does not close the mode of the first scan does not close that of the second, and
opens the same. -/
theorem Nested.opened?_eq (h : Nested n (⟨.argument, openedAt⟩ :: below) s s')
    {kind : Token.Kind} (hOpen : s.top.mode.isClosedBy kind = false) :
    s'.top.mode.isClosedBy kind = false ∧ s'.top.mode.opened? kind = s.top.mode.opened? kind := by
  obtain ⟨inner, bottom, hBottom, -, hFrames, hFrames'⟩ := h.frames
  cases inner with
  | nil =>
      obtain ⟨hTop, -⟩ := List.cons.inj hFrames
      obtain ⟨hTop', -⟩ := List.cons.inj hFrames'
      rw [hTop, hBottom] at hOpen ⊢
      rw [hTop']
      exact Mode.argument_of_selector hOpen
  | cons f inner =>
      obtain ⟨hTop, -⟩ := List.cons.inj hFrames
      obtain ⟨hTop', -⟩ := List.cons.inj hFrames'
      rw [hTop] at hOpen ⊢
      rw [hTop']
      exact ⟨hOpen, rfl⟩

/-- A token opens and closes the same modes. -/
theorem Nested.shift (h : Nested n (⟨.argument, openedAt⟩ :: below) s s') {top : Frame}
    {more : List Frame} (hShift : s.shift token = .ok (top, more)) :
    ∃ top' more', s'.shift (token.moved n) = .ok (top', more') ∧
      ∃ inner bottom, bottom.mode = .selector ∧ (∀ f ∈ inner, f.mode ≠ .selector) ∧
        top :: more = inner ++ [bottom] ∧
        top' :: more' = inner.map (Frame.moved n) ++ ⟨.argument, openedAt⟩ :: below := by
  obtain ⟨inner, bottom, hBottom, hInner, hFrames, hFrames'⟩ := h.frames
  obtain ⟨hClosed, hMore⟩ | ⟨hOpen, hCases⟩ := shift_eq_ok_iff.mp hShift
  · cases inner with
    | nil =>
        -- the outermost mode has nothing below it
        obtain ⟨-, hBelow⟩ := List.cons.inj hFrames
        cases hMore.symm.trans hBelow
    | cons f inner =>
        obtain ⟨hTop, hBelow⟩ := List.cons.inj hFrames
        obtain ⟨hTop', hBelow'⟩ := List.cons.inj hFrames'
        have hClosed' : s'.top.mode.isClosedBy token.kind = true := by
          rw [hTop']
          rwa [hTop] at hClosed
        obtain ⟨top', more', hLeft⟩ : ∃ top' more', s'.below = top' :: more' :=
          List.exists_cons_of_ne_nil (by
            rw [hBelow']
            exact List.append_ne_nil_of_right_ne_nil _ nofun)
        exact ⟨top', more', shift_of_closed hClosed' hLeft, inner, bottom, hBottom,
          (List.forall_mem_cons.mp hInner).2, hMore.symm.trans hBelow, hLeft.symm.trans hBelow'⟩
  · obtain ⟨hOpen', hSame⟩ := h.opened?_eq hOpen
    obtain ⟨mode, hMode, rfl, rfl⟩ | ⟨hMode, rfl, rfl⟩ := hCases
    · refine ⟨_, _, shift_of_opened hOpen' (hSame.trans hMode), ⟨mode, token.offset⟩ :: inner,
        bottom, hBottom, ?_, ?_, ?_⟩
      · exact List.forall_mem_cons.mpr ⟨Mode.opened?_ne_selector hMode, hInner⟩
      · rw [hFrames]
        rfl
      · rw [hFrames']
        rfl
    · exact ⟨_, _, shift_of_kept hOpen' (hSame.trans hMode), inner, bottom, hBottom, hInner,
        hFrames, hFrames'⟩

/-- A scan that ends has closed its modes. -/
theorem mode_of_run_nil {tokens : List Token} (hRest : s.rest = []) (h : s.run = .ok tokens) :
    s.top.mode = .selector := by
  obtain ⟨-, hFinish⟩ | ⟨token, next, more, hStep, -⟩ := run_eq_ok h
  · exact (finish_eq_ok_iff.mp hFinish).1
  · rw [step, hRest] at hStep
    cases hStep

/-- What is left of a source that is scanned to its end can stand in front of a parenthesis. -/
theorem seam_of_run {tokens : List Token} (h : s.run = .ok tokens) : Seam s.rest (')' :: u) := by
  obtain ⟨front, s', hPasses, hNil, hMode, -⟩ := passes_of_run h
  have hText := hPasses.text_eq hNil
  have hBare : s'.top.mode.holdsText = false := by rw [hMode]; rfl
  refine ⟨?_, ?_, fun _ => hText ▸ hPasses.text_ne_backslash hBare⟩
  · rintro c ⟨⟩
    decide
  · rintro c ⟨⟩ hBlank
    cases hBlank

/-- The next token of the first scan is the next one of the second, and both go on side by side. -/
theorem Nested.step (h : Nested n (⟨.argument, openedAt⟩ :: below) s s')
    (hRest : s'.rest = s.rest ++ ')' :: u) {tokens : List Token}
    (hStep : s.step = some (.ok (token, next))) (hRun : next.run = .ok tokens) :
    ∃ next', s'.step = some (.ok (token.moved n, next')) ∧
      Nested n (⟨.argument, openedAt⟩ :: below) next next' ∧
      next'.rest = next.rest ++ ')' :: u := by
  obtain ⟨c, t, length, hText, hKind, hToken, hShift, hNext, hOffset⟩ := step_eq_some_ok hStep
  obtain ⟨hPos, hLength⟩ := Mode.length_of_recognize? hKind
  have hDrop : (c :: t).drop length = next.rest := by
    obtain ⟨k, rfl⟩ := Nat.exists_eq_succ_of_ne_zero (Nat.ne_of_gt hPos)
    rw [List.drop_succ_cons, hNext, Nat.succ_sub_one]
  have hHeld : s.top.mode.isClosedBy token.kind = true ∨ s.top.mode.IsHeld next.rest := by
    obtain ⟨front, last, hPasses, hNil, hMode, -⟩ := passes_of_run hRun
    have hText' := hPasses.text_eq hNil
    exact hText' ▸ hPasses.isHeld hStep (by rw [hMode]; rfl)
  rw [← List.append_nil t] at hKind
  obtain ⟨-, -, hSwap⟩ := Mode.recognize?_swap hKind
  rw [hDrop] at hSwap
  have hKind' := h.recognize? (hSwap hLength hHeld (')' :: u) (seam_of_run hRun))
  have hInside : length - 1 ≤ t.length := by
    rw [List.length_cons] at hLength
    omega
  obtain ⟨top', more', hShift', hFrames⟩ := h.shift hShift
  have hMoved : (⟨token.kind, c :: (t ++ ')' :: u).take (length - 1), s'.offset⟩ : Token) =
      token.moved n := by
    rw [List.take_append_of_le_length hInside, h.offset, hToken]
    rfl
  refine ⟨⟨next.rest ++ ')' :: u, (token.moved n).stop, top', more'⟩, ?_, ⟨?_, hFrames⟩, rfl⟩
  · rw [Scan.step, hRest, hText, List.cons_append]
    simp only [take, hKind', hMoved, hShift', List.drop_append_of_le_length hInside, hNext]
  · rw [hOffset, Token.stop, Token.stop]
    exact Nat.add_right_comm _ _ _

/-- What the first scan finds up to its end the second finds up to the parenthesis. -/
theorem Nested.passes {s s' : Scan} {tokens : List Token}
    (h : Nested n (⟨.argument, openedAt⟩ :: below) s s')
    (hRest : s'.rest = s.rest ++ ')' :: u) (hRun : s.run = .ok tokens) :
    ∃ front offset offset', tokens = front ++ [⟨.eof, [], offset⟩] ∧
      Passes s' (front.map (Token.moved n)) ⟨')' :: u, offset', ⟨.argument, openedAt⟩, below⟩ := by
  obtain ⟨hStep, hFinish⟩ | ⟨token, next, more, hStep, hMore, rfl⟩ := run_eq_ok hRun
  · have hNil : s.rest = [] := by
      cases hText : s.rest with
      | nil => rfl
      | cons c t =>
          rw [Scan.step, hText] at hStep
          cases hStep
    have hMode := mode_of_run_nil hNil hRun
    obtain ⟨inner, bottom, -, hInner, hFrames, hFrames'⟩ := h.frames
    cases inner with
    | nil =>
        rw [finish, if_pos hMode] at hFinish
        cases hFinish
        obtain ⟨rest', offset', top', below'⟩ := s'
        obtain ⟨rfl, rfl⟩ := List.cons.inj hFrames'
        obtain rfl : rest' = ')' :: u := by rw [hNil] at hRest; exact hRest
        exact ⟨[], s.offset, offset', rfl, .done⟩
    | cons f inner =>
        obtain ⟨hTop, -⟩ := List.cons.inj hFrames
        exact absurd (hTop ▸ hMode) (hInner f List.mem_cons_self)
  · obtain ⟨next', hStep', hNested, hRest'⟩ := h.step hRest hStep hMore
    obtain ⟨front, offset, offset', rfl, hPasses⟩ := hNested.passes hRest' hMore
    exact ⟨token :: front, offset, offset', rfl, .step hStep' hPasses⟩
termination_by s.rest.length
decreasing_by exact length_rest_of_step hStep

end Scan

namespace Mode

/-- A source that is scanned by itself can be read between parentheses. -/
theorem reads_of_tokenize {source : Text} {tokens : List Token} (u : Text)
    (h : tokenize source = .ok tokens) :
    ∃ front offset, tokens = front ++ [⟨.eof, [], offset⟩] ∧
      Mode.argument.Reads source (')' :: u) fun ts =>
        ∃ n, ts = (uncommented front).map (Token.moved n) := by
  have hNested (offset openedAt : Nat) (below : List Frame) :
      Scan.Nested offset (⟨.argument, openedAt⟩ :: below) (Scan.start source)
        ⟨source ++ ')' :: u, offset, ⟨.argument, openedAt⟩, below⟩ :=
    ⟨(Nat.zero_add offset).symm, [], ⟨.selector, 0⟩, rfl, by simp, rfl, rfl⟩
  obtain ⟨front, stop, -, hTokens, -⟩ := (hNested 0 0 []).passes rfl h
  refine ⟨front, stop, hTokens, fun offset openedAt below => ?_⟩
  obtain ⟨front', stop', offset', hTokens', hPasses⟩ :=
    (hNested offset openedAt below).passes rfl h
  rw [hTokens] at hTokens'
  obtain ⟨rfl, -⟩ := List.append_inj' hTokens' rfl
  exact ⟨_, offset', hPasses, offset, uncommented_moved offset front⟩

end Mode

end SelectorXPath
