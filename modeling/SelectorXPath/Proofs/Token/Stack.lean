import SelectorXPath.Proofs.Nesting
import SelectorXPath.Proofs.Token.Lossless
import SelectorXPath.Proofs.Token.Nested

/-! The modes that are open while a source is scanned. A mode is opened only where it has a meaning:
arguments inside of the outermost mode and of each other, brackets inside of these, and strings and
comments inside of any, with nothing inside of them. What a mode is opened by is closed by its
match, so the delimiters of a source that is scanned to its end are nested. The one delimiter that
need not match anything is a closing bracket directly between parentheses. -/

namespace SelectorXPath

open SelectorXPath.Text

namespace Token

/-- The delimiters among the tokens. A closing bracket closes nothing between parentheses. -/
def marks : Marks Kind where
  closing?
    | .parenthesesStart => some .parenthesesEnd
    | .attributeStart => some .attributeEnd
    | .stringStart mark => some (.stringEnd mark)
    | .commentStart => some .commentEnd
    | _ => none
  isClosing
    | .parenthesesEnd | .attributeEnd | .stringEnd _ | .commentEnd => true
    | _ => false
  isStray
    | .parenthesesStart, .attributeEnd => true
    | _, _ => false

end Token

namespace Mode

open Token

variable {mode inner : Mode} {t : Text} {kind : Kind} {n : Nat}

/-- The token that opens a mode. -/
def opener? : Mode → Option Kind
  | .selector => none
  | .string mark => some (.stringStart mark)
  | .attribute => some .attributeStart
  | .argument => some .parenthesesStart
  | .comment => some .commentStart

/-- A mode tells which token opened it. -/
theorem opener?_of_opened? (h : mode.opened? kind = some inner) : inner.opener? = some kind := by
  unfold opened? at h
  split at h <;> cases h <;> rfl

/-- What closes a mode is the match of what opens it. -/
theorem closing?_of_isClosedBy (h : mode.isClosedBy kind = true) (hMode : mode ≠ .selector) :
    ∃ opener, mode.opener? = some opener ∧ Token.marks.closing? opener = some kind := by
  unfold isClosedBy at h
  split at h
  -- the outermost mode has closing tokens, but no token opens it
  case h_6 | h_7 => exact absurd rfl hMode
  case h_8 => cases h
  all_goals exact ⟨_, rfl, rfl⟩

/-- Delimiters open or close the mode that finds them, but for a closing bracket between
parentheses. -/
theorem isPlain_or_stray (h : kind ∈ mode.kinds) (hClosed : mode.isClosedBy kind = false)
    (hOpened : mode.opened? kind = none) :
    Token.marks.isPlain kind = true ∨ mode = .argument ∧ kind = .attributeEnd := by
  have hAll : ∀ kind ∈ mode.kinds, mode.isClosedBy kind = false → mode.opened? kind = none →
      Token.marks.isPlain kind = true ∨ mode = .argument ∧ kind = .attributeEnd := by
    cases mode with
    | string mark => cases mark <;> decide
    | _ => decide
  exact hAll kind h hClosed hOpened

/-- The modes inside of the outermost one, from the outside in: any number of arguments, then
perhaps brackets, then perhaps a string or a comment. -/
def InOrder (modes : List Mode) : Prop :=
  ∃ (n : Nat) (brackets texts : List Mode),
    modes = List.replicate n .argument ++ (brackets ++ texts) ∧
    (brackets = [] ∨ brackets = [.attribute]) ∧
    (texts = [] ∨ ∃ mode, mode.holdsText = true ∧ texts = [mode])

/-- Some token opens the second mode inside of the first. -/
def Opens (mode inner : Mode) : Prop :=
  ∃ kind, mode.opened? kind = some inner

/-- Nothing is opened inside of a string or of a comment. -/
theorem Opens.holdsText_eq_false (h : mode.Opens inner) : mode.holdsText = false := by
  obtain ⟨kind, hOpened⟩ := h
  cases mode with
  | string | comment => cases hOpened
  | _ => rfl

/-- Between brackets only strings and comments are opened. -/
theorem Opens.not_attribute (h : mode.Opens inner) (hInner : inner.holdsText = false) :
    mode ≠ .attribute := by
  rintro rfl
  obtain ⟨kind, hOpened⟩ := h
  cases kind <;> cases hOpened <;> cases hInner

/-- Modes that are opened one inside of the other are in order. Inside of brackets there are no more
than strings and comments, and inside of these nothing. -/
theorem inOrder_of_isChain {modes : List Mode} (h : (mode :: modes).IsChain Opens) :
    InOrder modes ∧ (mode.holdsText = true → modes = []) ∧
      (mode = .attribute → modes = [] ∨ ∃ inner, inner.holdsText = true ∧ modes = [inner]) := by
  induction modes generalizing mode with
  | nil => exact ⟨⟨0, [], [], rfl, Or.inl rfl, Or.inl rfl⟩, fun _ => rfl, fun _ => Or.inl rfl⟩
  | cons inner modes ih =>
      obtain ⟨hOpens, hChain⟩ := List.isChain_cons_cons.mp h
      obtain ⟨hOrder, hText, hBrackets⟩ := ih hChain
      have hMode := hOpens.holdsText_eq_false
      by_cases hHolds : inner.holdsText = true
      · obtain rfl := hText hHolds
        refine ⟨⟨0, [], [inner], rfl, Or.inl rfl, Or.inr ⟨inner, hHolds, rfl⟩⟩, ?_, ?_⟩
        · simp [hMode]
        · exact fun _ => Or.inr ⟨inner, hHolds, rfl⟩
      · have hBare := hOpens.not_attribute (by simpa using hHolds)
        refine ⟨?_, by simp [hMode], fun hSame => absurd hSame hBare⟩
        cases inner with
        | string | comment => exact absurd rfl hHolds
        | selector =>
            obtain ⟨kind, hOpened⟩ := hOpens
            exact absurd rfl (opened?_ne_selector hOpened)
        | «attribute» =>
            refine ⟨0, [.attribute], modes, rfl, Or.inr rfl, hBrackets rfl⟩
        | argument =>
            obtain ⟨n, brackets, texts, rfl, hRest⟩ := hOrder
            exact ⟨n + 1, brackets, texts, rfl, hRest⟩

end Mode

/-- The token that opened a mode; the outermost one is open from the start. -/
def Frame.opener? (f : Frame) : Option Token.Kind :=
  f.mode.opener?

namespace Scan

variable {s next : Scan} {token : Token} {ts us : List Token} {inner : List Frame}

/-- The open modes, the outermost first. -/
def stack (s : Scan) : List Frame :=
  (s.top :: s.below).reverse

/-- The token opens a mode, inside of another one. -/
def OpenedBy (ts : List Token) (outer frame : Frame) : Prop :=
  ∃ t ∈ ts, t.offset = frame.openedAt ∧ outer.mode.opened? t.kind = some frame.mode

/-- The token that opened a mode stays behind, however far the scan goes on. -/
theorem OpenedBy.append {outer frame : Frame} (us : List Token) (h : OpenedBy ts outer frame) :
    OpenedBy (ts ++ us) outer frame := by
  obtain ⟨t, ht, hOpened⟩ := h
  exact ⟨t, List.mem_append_left us ht, hOpened⟩

/-- What a scan that has taken the tokens `ts` says about the modes inside of the outermost one,
from the inside out. They were opened one after the other by tokens that are still unclosed. -/
structure Holds (ts : List Token) (inner : List Frame) (s : Scan) : Prop where
  frames : s.top :: s.below = inner ++ [⟨.selector, 0⟩]
  opened : (s.top :: s.below).IsChain fun f g => OpenedBy ts g f
  increasing : inner.Pairwise fun f g => g.openedAt < f.openedAt
  passed : ∀ f ∈ inner, f.openedAt < s.offset
  unclosed : Token.marks.Unclosed (inner.filterMap Frame.opener?) (ts.map Token.kind)

/-- At the start nothing is open and nothing is unclosed. -/
theorem holds_start (source : Text) : Holds [] [] (start source) where
  frames := rfl
  opened := List.isChain_singleton _
  increasing := List.Pairwise.nil
  passed := by simp
  unclosed := .nil .nil

/-- The innermost mode is closed. -/
theorem Holds.close (h : Holds ts inner s) (hClosed : s.top.mode.isClosedBy token.kind = true)
    (hBelow : s.below = next.top :: next.below) (hOffset : s.offset < next.offset) :
    Holds (ts ++ [token]) inner.tail next := by
  obtain ⟨hFrames, hOpened, hIncreasing, hPassed, hUnclosed⟩ := h
  rw [hBelow] at hFrames hOpened
  obtain ⟨⟨opening, -, -, hTop⟩, hChain⟩ := List.isChain_cons_cons.mp hOpened
  obtain ⟨opener, hOpener, hClosing⟩ :=
    Mode.closing?_of_isClosedBy hClosed (Mode.opened?_ne_selector hTop)
  have hOpener : s.top.opener? = some opener := hOpener
  cases inner with
  | nil => cases (List.cons.inj hFrames).2
  | cons f inner =>
      obtain ⟨rfl, hRest⟩ := List.cons.inj hFrames
      rw [List.forall_mem_cons] at hPassed
      rw [List.filterMap_cons_some hOpener] at hUnclosed
      refine ⟨hRest, ?_, (List.pairwise_cons.mp hIncreasing).2, ?_, ?_⟩
      · exact hChain.imp fun _ _ hBy => hBy.append [token]
      · exact fun g hg => Nat.lt_trans (hPassed.2 g hg) hOffset
      · rw [List.map_append]
        exact hUnclosed.pop hClosing

/-- Another mode is opened inside of the innermost one. -/
theorem Holds.open (h : Holds ts inner s) {mode : Mode}
    (hOpened : s.top.mode.opened? token.kind = some mode) (hToken : token.offset = s.offset)
    (hTop : next.top = ⟨mode, token.offset⟩) (hBelow : next.below = s.top :: s.below)
    (hOffset : s.offset < next.offset) :
    Holds (ts ++ [token]) (⟨mode, token.offset⟩ :: inner) next where
  frames := by rw [hTop, hBelow, h.frames, List.cons_append]
  opened := by
    rw [hTop, hBelow]
    apply List.isChain_cons_cons.mpr
    refine ⟨⟨token, by simp, rfl, hOpened⟩, ?_⟩
    exact h.opened.imp fun _ _ hBy => hBy.append [token]
  increasing := by
    apply List.pairwise_cons.mpr
    refine ⟨fun f hf => ?_, h.increasing⟩
    show f.openedAt < token.offset
    rw [hToken]
    exact h.passed f hf
  passed := by
    rw [List.forall_mem_cons]
    refine ⟨?_, fun f hf => Nat.lt_trans (h.passed f hf) hOffset⟩
    show token.offset < next.offset
    rw [hToken]
    exact hOffset
  unclosed := by
    have hOpener : (⟨mode, token.offset⟩ : Frame).opener? = some token.kind :=
      Mode.opener?_of_opened? hOpened
    rw [List.map_append, List.filterMap_cons_some hOpener]
    exact h.unclosed.push

/-- The modes stay as they are. -/
theorem Holds.keep (h : Holds ts inner s) (hKind : token.kind ∈ s.top.mode.kinds)
    (hClosed : s.top.mode.isClosedBy token.kind = false)
    (hOpened : s.top.mode.opened? token.kind = none)
    (hTop : next.top = s.top) (hBelow : next.below = s.below) (hOffset : s.offset < next.offset) :
    Holds (ts ++ [token]) inner next where
  frames := by rw [hTop, hBelow, h.frames]
  opened := by
    rw [hTop, hBelow]
    exact h.opened.imp fun _ _ hBy => hBy.append [token]
  increasing := h.increasing
  passed f hf := Nat.lt_trans (h.passed f hf) hOffset
  unclosed := by
    rw [List.map_append]
    apply h.unclosed.append
    rcases Mode.isPlain_or_stray hKind hClosed hOpened with hPlain | ⟨hMode, hEnd⟩
    · exact .plain hPlain .nil
    · cases inner with
      | nil =>
          obtain ⟨hSelector, -⟩ := List.cons.inj h.frames
          rw [hSelector] at hMode
          cases hMode
      | cons f inner =>
          obtain ⟨rfl, -⟩ := List.cons.inj h.frames
          have hOpener : s.top.opener? = some .parenthesesStart := by
            rw [Frame.opener?, hMode]
            rfl
          rw [List.filterMap_cons_some hOpener]
          apply Marks.Nested.stray _ .nil
          rw [hEnd]
          rfl

/-- One step of a scan. -/
theorem Holds.step (h : Holds ts inner s) (hStep : s.step = some (.ok (token, next))) :
    ∃ inner', Holds (ts ++ [token]) inner' next := by
  obtain ⟨c, t, length, -, hKind, -, hShift, -⟩ := step_eq_some_ok hStep
  have hTakes := takes_of_step hStep
  have hOffset : s.offset < next.offset := by
    have hPos := byteLength_pos hTakes.text_ne_nil
    rw [hTakes.stop_eq, Token.stop, hTakes.start_eq, Token.byteLength]
    omega
  obtain ⟨hClosed, hBelow⟩ | ⟨hClosed, ⟨mode, hOpened, hTop, hBelow⟩ | ⟨hOpened, hTop, hBelow⟩⟩ :=
    shift_eq_ok_iff.mp hShift
  · exact ⟨_, h.close hClosed hBelow hOffset⟩
  · exact ⟨_, h.open hOpened hTakes.start_eq hTop hBelow hOffset⟩
  · have hFound := (Mode.form_of_recognize? hKind).mem_kinds
    exact ⟨_, h.keep hFound hClosed hOpened hTop hBelow hOffset⟩

/-- The run lemma: whatever a scan has taken, its modes are those that are unclosed. -/
theorem Holds.passes (h : Holds ts inner s) (hPasses : Passes s us next) :
    ∃ inner', Holds (ts ++ us) inner' next := by
  induction hPasses generalizing ts inner with
  | done =>
      rw [List.append_nil]
      exact ⟨inner, h⟩
  | @step s s' s'' t us hStep _ ih =>
      obtain ⟨inner', hNext⟩ := h.step hStep
      rw [← List.singleton_append, ← List.append_assoc]
      exact ih hNext

/-- The outermost mode is not opened again, so it has nothing inside where it is the innermost one.
-/
theorem Holds.eq_nil_of_mode (h : Holds ts inner s) (hMode : s.top.mode = .selector) :
    inner = [] := by
  cases inner with
  | nil => rfl
  | cons f inner =>
      obtain ⟨rfl, hBelow⟩ := List.cons.inj h.frames
      obtain ⟨outer, below, hMore⟩ := List.exists_cons_of_ne_nil
        (show s.below ≠ [] by rw [hBelow]; simp)
      have hOpened := h.opened
      rw [hMore] at hOpened
      obtain ⟨⟨opening, -, -, hTop⟩, -⟩ := List.isChain_cons_cons.mp hOpened
      exact absurd hMode (Mode.opened?_ne_selector hTop)

/-- The modes that are open behind the tokens `ts`, from the outside in. The outermost one is there
from the start and nowhere else, the ones above it are in order, and each of them was opened by one
of the tokens, farther to the right than the one below it. -/
structure WellStacked (ts : List Token) (s : Scan) (above : List Frame) : Prop where
  stack_eq : s.stack = ⟨.selector, 0⟩ :: above
  inOrder : Mode.InOrder (above.map Frame.mode)
  increasing : above.Pairwise fun f g => f.openedAt < g.openedAt
  opened : s.stack.IsChain (OpenedBy ts)

/-- The modes from the outside in, as the stack has them. -/
theorem Holds.wellStacked (h : Holds ts inner s) : WellStacked ts s inner.reverse := by
  have hStack : s.stack = ⟨.selector, 0⟩ :: inner.reverse := by
    rw [stack, h.frames, List.reverse_append]
    rfl
  have hOpened : s.stack.IsChain (OpenedBy ts) := by
    rw [stack, List.isChain_reverse]
    exact h.opened
  refine ⟨hStack, ?_, List.pairwise_reverse.mpr h.increasing, hOpened⟩
  have hModes : (s.stack.map Frame.mode).IsChain Mode.Opens := by
    apply List.isChain_map_of_isChain Frame.mode _ hOpened
    rintro f g ⟨t, -, -, hMode⟩
    exact ⟨t.kind, hMode⟩
  rw [hStack, List.map_cons] at hModes
  exact (Mode.inOrder_of_isChain hModes).1

/-- Only the end of the source makes a mode unterminated. -/
theorem fault_ne_unterminated {e : LexError} (h : s.step = some (.error e)) (mode : Mode) :
    e.fault ≠ .unterminated mode := by
  intro hFault
  unfold Scan.step at h
  split at h
  · cases h
  · obtain h := Option.some.inj h
    unfold take at h
    split at h
    · cases h
      cases hFault
    · dsimp only at h
      split at h
      · rename_i hShift
        cases h
        unfold shift at hShift
        split at hShift
        · split at hShift <;> cases hShift
          cases hFault
        · split at hShift <;> cases hShift
      · cases h

end Scan

/-- The outermost mode is never left open. -/
theorem tokenize_ne_unterminated_selector (source : Text) (offset : Nat) :
    tokenize source ≠ .error ⟨offset, .unterminated .selector⟩ := by
  intro h
  obtain ⟨ts, s, -, ⟨-, hRun⟩ | ⟨e, hError, hRun⟩⟩ := Scan.exists_passes (.start source)
  · rw [← tokenize, h, Scan.finish] at hRun
    split at hRun
    · cases hRun
    · rename_i hMode
      obtain ⟨-, hSelector⟩ := LexError.mk.inj (Except.error.inj hRun)
      exact hMode (LexFault.unterminated.inj hSelector).symm
  · rw [← tokenize, h] at hRun
    cases hRun
    exact Scan.fault_ne_unterminated hError .selector rfl

/-- The delimiters of a source that is scanned are nested. -/
theorem nested_of_tokenize {source : Text} {tokens : List Token}
    (h : tokenize source = .ok tokens) :
    Token.marks.Nested none (tokens.map Token.kind) := by
  obtain ⟨front, s, hPasses, -, hMode, rfl⟩ := Scan.passes_of_run h
  obtain ⟨inner, hHolds⟩ := (Scan.holds_start source).passes hPasses
  obtain rfl := hHolds.eq_nil_of_mode hMode
  rw [List.map_append]
  exact hHolds.unclosed.nested.append (.plain rfl .nil)

/-- Behind every token the modes are well stacked, the delimiters of a source that is scanned to its
end are nested, and the outermost mode is never what a scan ends in too early. -/
theorem tokenize_stack (source : Text) :
    (∀ ts s, Scan.Passes (.start source) ts s → ∃ above, Scan.WellStacked ts s above) ∧
    (∀ tokens, tokenize source = .ok tokens →
      Token.marks.Nested none (tokens.map Token.kind)) ∧
    ∀ offset, tokenize source ≠ .error ⟨offset, .unterminated .selector⟩ := by
  refine ⟨?_, fun tokens => nested_of_tokenize, tokenize_ne_unterminated_selector source⟩
  intro ts s hPasses
  obtain ⟨inner, hHolds⟩ := (Scan.holds_start source).passes hPasses
  exact ⟨inner.reverse, hHolds.wellStacked⟩

/-- A closing bracket between parentheses, behind brackets around a string with a parenthesis in it;
and the modes that are open inside of brackets between parentheses. -/
theorem tokenize_stack_of_stray :
    (tokenize "a:not([b='('] ])".toList).isOk = true ∧
      (∃ tokens, tokenize "a:not([b='('] ])".toList = .ok tokens ∧
        Token.marks.Nested none (tokens.map Token.kind)) ∧
      ∃ above, Scan.WellStacked [⟨.parenthesesStart, ['('], 0⟩, ⟨.attributeStart, ['['], 1⟩]
        ⟨[], 2, ⟨.attribute, 1⟩, [⟨.argument, 0⟩, ⟨.selector, 0⟩]⟩ above := by
  have hOk : (tokenize "a:not([b='('] ])".toList).isOk = true := by decide +kernel
  obtain ⟨tokens, hTokens⟩ := exists_ok_of_isOk hOk
  refine ⟨hOk, ⟨tokens, hTokens, (tokenize_stack _).2.1 tokens hTokens⟩, ?_⟩
  have hFirst : (Scan.start ['(', '[']).step = some (.ok (⟨.parenthesesStart, ['('], 0⟩,
      ⟨['['], 1, ⟨.argument, 0⟩, [⟨.selector, 0⟩]⟩)) := rfl
  have hSecond : (⟨['['], 1, ⟨.argument, 0⟩, [⟨.selector, 0⟩]⟩ : Scan).step =
      some (.ok (⟨.attributeStart, ['['], 1⟩,
        ⟨[], 2, ⟨.attribute, 1⟩, [⟨.argument, 0⟩, ⟨.selector, 0⟩]⟩)) := rfl
  exact (tokenize_stack ['(', '[']).1 _ _ (.step hFirst (.step hSecond .done))

end SelectorXPath
