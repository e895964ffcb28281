import SelectorXPath.Proofs.Token.Stack

/-! What an error of a scan points at. Tokens whose kind has a sign of its own begin with that sign.
An error stands at a place of the source where the text goes on with what the error names: with the
character that no token begins with, with the closing delimiter that closes nothing, or with the
sign of the token that opened a mode which is never closed. -/

namespace SelectorXPath

open SelectorXPath.Text

/-- A token that a scan takes begins with the sign of its kind. -/
theorem Token.Recognized.sign_prefix {token : Token} (h : token.Recognized) :
    token.kind.sign <+: token.text := by
  obtain ⟨mode, c, t, length, hKind, hText⟩ := h
  obtain ⟨hPrefix, hLength⟩ := (Mode.form_of_recognize? hKind).hasSign
  obtain ⟨c', t', hSame, hTake, -⟩ := Mode.recognize?_take hKind
  obtain ⟨rfl, rfl⟩ := List.cons.inj hSame
  rw [hText, ← hTake]
  exact List.prefix_take_iff.mpr ⟨hPrefix, hLength⟩

/-- The text that a fault names: the character, the delimiter that closes nothing, or the sign that
opens the mode. -/
def LexFault.named : LexFault → Text
  | .unexpected c => [c]
  | .unterminated mode => (mode.opener?.map Token.Kind.sign).getD []
  | .unbalanced delimiter => delimiter

namespace Scan

variable {source : Text} {s : Scan} {token : Token} {ts : List Token}

/-- A token of a scan stands at its offset, and it has been recognised there. -/
theorem Passes.standsAt (h : Passes (start source) ts s) (hToken : token ∈ ts) :
    token.StandsAt source token.offset ∧ token.Recognized := by
  obtain ⟨front, back, rfl⟩ := List.append_of_mem hToken
  obtain ⟨middle, hFront, hBack⟩ := h.cut
  cases hBack with
  | step hStep _ =>
      have hStands := Mode.standsAt_of_tokenAt? (tokenAt?_of_step hFront.fromByte?_eq hStep)
      exact ⟨(takes_of_step hStep).start_eq ▸ hStands, recognized_of_step hStep⟩

/-- The innermost mode that is open was opened by a token with its sign. -/
theorem named_of_unterminated (h : Passes (start source) ts s) (hMode : s.top.mode ≠ .selector) :
    (LexFault.unterminated s.top.mode).named ≠ [] ∧ ∃ back, fromByte? source s.top.openedAt =
      some ((LexFault.unterminated s.top.mode).named ++ back) := by
  obtain ⟨inner, hHolds⟩ := (holds_start source).passes h
  obtain ⟨hFrames, hOpened, -⟩ := hHolds
  cases hBelow : s.below with
  | nil =>
      rw [hBelow] at hFrames
      cases inner with
      | nil => exact absurd (by rw [(List.cons.inj hFrames).1]) hMode
      | cons f inner => simp at hFrames
  | cons outer below =>
      rw [hBelow] at hOpened
      obtain ⟨⟨t, ht, hOffset, hKind⟩, -⟩ := List.isChain_cons_cons.mp hOpened
      obtain ⟨hStands, hRecognized⟩ := h.standsAt ht
      obtain ⟨back, hText, -⟩ := hStands.text_eq
      obtain ⟨more, hMore⟩ := hRecognized.sign_prefix
      have hNamed : (LexFault.unterminated s.top.mode).named = t.kind.sign := by
        rw [LexFault.named, Mode.opener?_of_opened? hKind]
        rfl
      refine ⟨?_, more ++ back, ?_⟩
      · generalize s.top.mode = mode at hMode
        cases mode <;> first | exact absurd rfl hMode | exact List.cons_ne_nil _ _
      · rw [hNamed, ← hOffset, hText, ← List.append_assoc, hMore]

/-- An error of a step names what the text goes on with. -/
theorem named_of_step {e : LexError} (h : s.step = some (.error e)) :
    e.offset = s.offset ∧ e.fault.named ≠ [] ∧ ∃ back, s.rest = e.fault.named ++ back := by
  unfold step at h
  split at h
  · cases h
  · rename_i c t hRest
    obtain h := Option.some.inj h
    unfold take at h
    split at h
    · cases h
      exact ⟨rfl, List.cons_ne_nil c [], t, hRest⟩
    · rename_i kind length hKind
      dsimp only at h
      split at h
      · rename_i hShift
        cases h
        unfold shift at hShift
        split at hShift
        · split at hShift <;> cases hShift
          refine ⟨rfl, List.cons_ne_nil _ _, t.drop (length - 1), ?_⟩
          rw [hRest, LexFault.named, List.cons_append, List.take_append_drop]
        · split at hShift <;> cases hShift
      · cases h

end Scan

/-- An error of a scan stands where the source goes on with what the error names. -/
theorem named_of_tokenize {source : Text} {e : LexError} (h : tokenize source = .error e) :
    e.fault.named ≠ [] ∧ ∃ back, fromByte? source e.offset = some (e.fault.named ++ back) := by
  obtain ⟨ts, s, hPasses, ⟨-, hRun⟩ | ⟨e', hStep, hRun⟩⟩ := Scan.exists_passes (.start source)
  · rw [← tokenize, h, Scan.finish] at hRun
    split at hRun
    · cases hRun
    · rename_i hMode
      cases hRun
      exact Scan.named_of_unterminated hPasses hMode
  · rw [← tokenize, h] at hRun
    cases hRun
    obtain ⟨hOffset, hSome, back, hBack⟩ := Scan.named_of_step hStep
    exact ⟨hSome, back, by rw [hOffset, hPasses.fromByte?_eq, hBack]⟩

end SelectorXPath
