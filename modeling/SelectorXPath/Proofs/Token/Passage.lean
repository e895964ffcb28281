import SelectorXPath.Proofs.Positions
import SelectorXPath.Proofs.Text.Spelling
import SelectorXPath.Token.Scan

/-! Scanning piece by piece. A text is read in some mode, with the text that really follows it, if
the scan passes over it and comes back to the same modes. Texts read one after the other are read
together, and so is a text between the marks that open and close a mode. -/

namespace SelectorXPath

open SelectorXPath.Text

namespace Scan

/-- The scan takes tokens one by one and gets from one state to the other. -/
inductive Passes : Scan → List Token → Scan → Prop where
  | done {s : Scan} : Passes s [] s
  | step {s s' s'' : Scan} {t : Token} {ts : List Token} (h : s.step = some (.ok (t, s')))
      (rest : Passes s' ts s'') : Passes s (t :: ts) s''

/-- Two scans of which the second goes on where the first one stops are one. -/
theorem Passes.trans {s s' s'' : Scan} {ts us : List Token} (h : Passes s ts s')
    (h' : Passes s' us s'') : Passes s (ts ++ us) s'' := by
  induction h with
  | done => exact h'
  | step hStep _ ih => exact .step hStep (ih h')

/-- Where the first of the tokens have been taken. -/
theorem Passes.cut {s s' : Scan} {ts us : List Token} (h : Passes s (ts ++ us) s') :
    ∃ middle, Passes s ts middle ∧ Passes middle us s' := by
  induction ts generalizing s with
  | nil => exact ⟨s, .done, h⟩
  | cons t ts ih =>
      cases h with
      | step hStep hRest =>
          obtain ⟨middle, hFront, hBack⟩ := ih hRest
          exact ⟨middle, .step hStep hFront, hBack⟩

/-- The tokens that are taken stand in front of those that the rest is cut into. -/
theorem Passes.run_eq {s s' : Scan} {ts us : List Token} (h : Passes s ts s')
    (hRun : s'.run = .ok us) : s.run = .ok (ts ++ us) := by
  induction h with
  | done => exact hRun
  | step hStep _ ih =>
      rw [run]
      split
      · rename_i hNone
        rw [hNone] at hStep
        cases hStep
      · rename_i hError
        rw [hError] at hStep
        cases hStep
      · rename_i hSome
        rw [hSome] at hStep
        cases hStep
        rw [ih hRun]
        rfl

/-- One token, whatever it does to the modes. -/
theorem step_of_text {s : Scan} {p rest : Text} {kind : Token.Kind} {top : Frame}
    {below : List Frame} (hRest : s.rest = p ++ rest) (hSome : p ≠ [])
    (hKind : s.top.mode.recognize? (p ++ rest) = some (kind, p.length))
    (hShift : s.shift ⟨kind, p, s.offset⟩ = .ok (top, below)) :
    s.step = some (.ok (⟨kind, p, s.offset⟩,
      ⟨rest, (⟨kind, p, s.offset⟩ : Token).stop, top, below⟩)) := by
  obtain ⟨c, t, rfl⟩ := List.exists_cons_of_ne_nil hSome
  rw [List.cons_append] at hRest hKind
  simp [step, hRest, take, hKind, hShift]

/-- One token that neither opens nor closes a mode. -/
theorem step_of_recognize? {mode : Mode} {kind : Token.Kind} {c : Char} {t rest : Text}
    (offset openedAt : Nat) (below : List Frame)
    (h : mode.recognize? (c :: (t ++ rest)) = some (kind, (c :: t).length))
    (hClosed : mode.isClosedBy kind = false) (hOpened : mode.opened? kind = none) :
    ∃ offset', (⟨c :: (t ++ rest), offset, ⟨mode, openedAt⟩, below⟩ : Scan).step =
      some (.ok (⟨kind, c :: t, offset⟩, ⟨rest, offset', ⟨mode, openedAt⟩, below⟩)) := by
  refine ⟨(⟨kind, c :: t, offset⟩ : Token).stop, ?_⟩
  simp [step, take, h, shift, hClosed, hOpened]

/-- One token that opens a mode. -/
theorem step_of_opened? {mode inner : Mode} {kind : Token.Kind} {c : Char} {rest : Text}
    (offset openedAt : Nat) (below : List Frame)
    (h : mode.recognize? (c :: rest) = some (kind, 1))
    (hClosed : mode.isClosedBy kind = false) (hOpened : mode.opened? kind = some inner) :
    ∃ offset', (⟨c :: rest, offset, ⟨mode, openedAt⟩, below⟩ : Scan).step =
      some (.ok (⟨kind, [c], offset⟩,
        ⟨rest, offset', ⟨inner, offset⟩, ⟨mode, openedAt⟩ :: below⟩)) := by
  refine ⟨(⟨kind, [c], offset⟩ : Token).stop, ?_⟩
  simp [step, take, h, shift, hClosed, hOpened]

/-- One token that closes a mode. -/
theorem step_of_isClosedBy {mode : Mode} {kind : Token.Kind} {c : Char} {rest : Text}
    (offset openedAt : Nat) (outer : Frame) (below : List Frame)
    (h : mode.recognize? (c :: rest) = some (kind, 1)) (hClosed : mode.isClosedBy kind = true) :
    ∃ offset', (⟨c :: rest, offset, ⟨mode, openedAt⟩, outer :: below⟩ : Scan).step =
      some (.ok (⟨kind, [c], offset⟩, ⟨rest, offset', outer, below⟩)) := by
  refine ⟨(⟨kind, [c], offset⟩ : Token).stop, ?_⟩
  simp [step, take, h, shift, hClosed]

end Scan

namespace Mode

def uncommented (ts : List Token) : List Token :=
  ts.filter fun t => !t.kind.isComment

/-- In the mode, and with `rest` behind it, the text is cut into tokens that have the property when
comments are left out, and the mode is the same in the end. -/
def Reads (mode : Mode) (text rest : Text) (property : List Token → Prop) : Prop :=
  ∀ offset openedAt below, ∃ ts offset',
    Scan.Passes ⟨text ++ rest, offset, ⟨mode, openedAt⟩, below⟩ ts
      ⟨rest, offset', ⟨mode, openedAt⟩, below⟩ ∧ property (uncommented ts)

variable {mode : Mode} {text rest : Text} {p q r : List Token → Prop}

/-- What is known about the tokens can be weakened. -/
theorem Reads.mono (h : mode.Reads text rest p) (hProperty : ∀ ts, p ts → q ts) :
    mode.Reads text rest q := by
  intro offset openedAt below
  obtain ⟨ts, offset', hPasses, hTokens⟩ := h offset openedAt below
  exact ⟨ts, offset', hPasses, hProperty _ hTokens⟩

theorem Reads.nil (h : p []) : mode.Reads [] rest p :=
  fun offset _ _ => ⟨[], offset, .done, h⟩

/-- Texts that are read one after the other are read together. The first is read with the second one
behind it. -/
theorem Reads.append {text' : Text} (h : mode.Reads text (text' ++ rest) p)
    (h' : mode.Reads text' rest q) (hBoth : ∀ ts us, p ts → q us → r (ts ++ us)) :
    mode.Reads (text ++ text') rest r := by
  intro offset openedAt below
  obtain ⟨ts, middle, hPasses, hTokens⟩ := h offset openedAt below
  obtain ⟨us, offset', hPasses', hTokens'⟩ := h' middle openedAt below
  refine ⟨ts ++ us, offset', ?_, ?_⟩
  · rw [List.append_assoc]
    exact hPasses.trans hPasses'
  · rw [uncommented, List.filter_append]
    exact hBoth _ _ hTokens hTokens'

/-- Texts that are read one after the other, where the tokens of either keep their property. -/
theorem Reads.both {text' : Text} (h : mode.Reads text (text' ++ rest) p)
    (h' : mode.Reads text' rest q) :
    mode.Reads (text ++ text') rest fun ts => ∃ xs ys, ts = xs ++ ys ∧ p xs ∧ q ys :=
  h.append h' fun xs ys hXs hYs => ⟨xs, ys, rfl, hXs, hYs⟩

/-- A kind of token that the mode goes on behind. -/
structure Keeps (mode : Mode) (kind : Token.Kind) : Prop where
  closed : mode.isClosedBy kind = false
  opened : mode.opened? kind = none
  visible : kind.isComment = false

/-- A text that is one token, behind which the mode goes on, is read. -/
theorem Reads.token {kind : Token.Kind} {c : Char} {t : Text} (hKeeps : mode.Keeps kind)
    (h : mode.recognize? (c :: (t ++ rest)) = some (kind, (c :: t).length))
    (hToken : ∀ offset, p [⟨kind, c :: t, offset⟩]) : mode.Reads (c :: t) rest p := by
  intro offset openedAt below
  obtain ⟨offset', hStep⟩ :=
    Scan.step_of_recognize? offset openedAt below h hKeeps.closed hKeeps.opened
  refine ⟨_, offset', .step hStep .done, ?_⟩
  rw [uncommented, List.filter_cons_of_pos (by simp [hKeeps.visible])]
  exact hToken offset

/-- What is read between the marks of an inner mode. -/
theorem Reads.enclosed {inner : Mode} {kind kind' : Token.Kind} {c d : Char}
    (hStart : mode.recognize? (c :: (text ++ d :: rest)) = some (kind, 1))
    (hClosed : mode.isClosedBy kind = false) (hOpened : mode.opened? kind = some inner)
    (hKind : kind.isComment = false) (h : inner.Reads text (d :: rest) p)
    (hStop : inner.recognize? (d :: rest) = some (kind', 1))
    (hClosed' : inner.isClosedBy kind' = true) (hKind' : kind'.isComment = false)
    (hBoth : ∀ start ts stop, start.kind = kind → p ts → stop.kind = kind' →
      q (start :: (ts ++ [stop]))) : mode.Reads (c :: (text ++ [d])) rest q := by
  intro offset openedAt below
  obtain ⟨first, hFirst⟩ :=
    Scan.step_of_opened? offset openedAt below hStart hClosed hOpened
  obtain ⟨ts, middle, hPasses, hTokens⟩ := h first offset (⟨mode, openedAt⟩ :: below)
  obtain ⟨last, hLast⟩ :=
    Scan.step_of_isClosedBy middle offset ⟨mode, openedAt⟩ below hStop hClosed'
  refine ⟨⟨kind, [c], offset⟩ :: (ts ++ [⟨kind', [d], middle⟩]), last, ?_, ?_⟩
  · have hText : c :: (text ++ [d]) ++ rest = c :: (text ++ d :: rest) := by simp
    rw [hText]
    exact .step hFirst (hPasses.trans (.step hLast .done))
  · have hTokens' := hBoth ⟨kind, [c], offset⟩ _ ⟨kind', [d], middle⟩ rfl hTokens rfl
    simpa [uncommented, hKind, hKind'] using hTokens'

end Mode

/-- A source that is read outside of all brackets is scanned. -/
theorem tokenize_of_reads {source : Text} {p : List Token → Prop}
    (h : Mode.selector.Reads source [] p) :
    ∃ ts offset, tokenize source = .ok (ts ++ [⟨.eof, [], offset⟩]) ∧
      p (Mode.uncommented ts) := by
  obtain ⟨ts, offset, hPasses, hTokens⟩ := h 0 0 []
  rw [List.append_nil] at hPasses
  refine ⟨ts, offset, ?_, hTokens⟩
  refine hPasses.run_eq ?_
  rw [Scan.run]
  rfl

end SelectorXPath
