import SelectorXPath.Proofs.Token.Seams

/-! A scan that stands further to the right finds the same tokens there, as far to the right as it
stands itself. The modes that are open when it begins may have been opened anywhere; those that it
opens move along, and so does every error but that of a mode that was open already. -/

namespace SelectorXPath

open SelectorXPath.Text

/-- The same token, so many bytes further to the right. -/
def Token.moved (n : Nat) (t : Token) : Token :=
  { t with offset := t.offset + n }

def Frame.moved (n : Nat) (f : Frame) : Frame :=
  { f with openedAt := f.openedAt + n }

def LexError.moved (n : Nat) (e : LexError) : LexError :=
  { e with offset := e.offset + n }

theorem Token.stop_moved (n : Nat) (t : Token) : (t.moved n).stop = t.stop + n :=
  Nat.add_right_comm _ _ _

theorem Mode.uncommented_moved (n : Nat) (ts : List Token) :
    uncommented (ts.map (Token.moved n)) = (uncommented ts).map (Token.moved n) := by
  rw [uncommented, uncommented, List.filter_map]
  rfl

namespace Scan

variable {s s' t : Scan} {n : Nat} {kept : Frame → Prop} {token : Token} {ts tokens : List Token}

/-- The second scan has the same text left, further to the right. Its modes are moved too, save for
some of which `kept` holds. -/
structure Moved (n : Nat) (kept : Frame → Prop) (s s' : Scan) : Prop where
  rest_eq : s'.rest = s.rest
  offset_eq : s'.offset = s.offset + n
  frames : List.Forall₂ (fun f f' => f' = f.moved n ∨ kept f ∧ f' = f)
    (s.top :: s.below) (s'.top :: s'.below)

/-- Text may be put in front of what is left without a change to the modes. -/
theorem moved_of_rest (s : Scan) (n : Nat) :
    Moved n (fun _ => True) s { s with offset := s.offset + n } where
  rest_eq := rfl
  offset_eq := rfl
  frames := List.forall₂_same.mpr fun _ _ => Or.inr ⟨trivial, rfl⟩

/-- Modes that are moved read characters in the same way. -/
theorem Moved.mode_eq (h : Moved n kept s s') : s'.top.mode = s.top.mode := by
  obtain ⟨hTop, -⟩ := List.forall₂_cons.mp h.frames
  rcases hTop with hTop | ⟨-, hTop⟩
  · rw [hTop]
    rfl
  · rw [hTop]

/-- A token opens and closes the same modes further to the right. -/
theorem Moved.shift_ok (h : Moved n kept s s') {top : Frame} {below : List Frame}
    (hShift : s.shift token = .ok (top, below)) :
    ∃ top' below', s'.shift (token.moved n) = .ok (top', below') ∧
      List.Forall₂ (fun f f' => f' = f.moved n ∨ kept f ∧ f' = f) (top :: below)
        (top' :: below') := by
  simp only [shift_eq_ok_iff] at hShift ⊢
  rw [h.mode_eq]
  obtain ⟨hTop, hBelow⟩ := List.forall₂_cons.mp h.frames
  rcases hShift with ⟨hClosed, hOuter⟩ | ⟨hOpen, ⟨mode, hMode, rfl, rfl⟩ | ⟨hMode, rfl, rfl⟩⟩
  · rw [hOuter] at hBelow
    obtain ⟨top', below', -, -, hOuter'⟩ := List.forall₂_cons_left_iff.mp hBelow
    rw [hOuter'] at hBelow
    exact ⟨top', below', Or.inl ⟨hClosed, hOuter'⟩, hBelow⟩
  · exact ⟨_, _, Or.inr ⟨hOpen, Or.inl ⟨mode, hMode, rfl, rfl⟩⟩, .cons (Or.inl rfl) h.frames⟩
  · exact ⟨_, _, Or.inr ⟨hOpen, Or.inr ⟨hMode, rfl, rfl⟩⟩, h.frames⟩

/-- A delimiter that closes nothing closes nothing there either. -/
theorem Moved.shift_error (h : Moved n kept s s') {e : LexError}
    (hShift : s.shift token = .error e) : s'.shift (token.moved n) = .error (e.moved n) := by
  obtain ⟨-, hBelow⟩ := List.forall₂_cons.mp h.frames
  have hKind : (token.moved n).kind = token.kind := rfl
  rw [shift] at hShift ⊢
  rw [h.mode_eq, hKind]
  split at hShift
  · rename_i hClosed
    rw [if_pos hClosed]
    split at hShift
    · rename_i hNil
      rw [hNil] at hBelow
      rw [List.forall₂_nil_left_iff.mp hBelow]
      cases hShift
      rfl
    · cases hShift
  · split at hShift <;> cases hShift

/-- Both scans take the same token off the text, or neither does. -/
theorem Moved.step_ok (h : Moved n kept s s') {next : Scan}
    (hStep : s.step = some (.ok (token, next))) :
    ∃ next', s'.step = some (.ok (token.moved n, next')) ∧ Moved n kept next next' := by
  obtain ⟨c, t, length, hText, hKind, hToken, hShift, hNext, hOffset⟩ := step_eq_some_ok hStep
  obtain ⟨top', below', hShift', hFrames⟩ := h.shift_ok hShift
  have hMoved : (⟨token.kind, c :: t.take (length - 1), s'.offset⟩ : Token) = token.moved n := by
    rw [h.offset_eq, hToken]
    rfl
  refine ⟨⟨t.drop (length - 1), (token.moved n).stop, top', below'⟩, ?_, hNext.symm, ?_, hFrames⟩
  · rw [step, h.rest_eq, hText]
    simp only [take, h.mode_eq, hKind, hMoved, hShift']
  · rw [Token.stop_moved, hOffset]

/-- A scan that is moved stops at the same character. -/
theorem Moved.step_error (h : Moved n kept s s') {e : LexError}
    (hStep : s.step = some (.error e)) : s'.step = some (.error (e.moved n)) := by
  unfold step at hStep ⊢
  rw [h.rest_eq]
  split at hStep
  · cases hStep
  · rename_i c t _
    obtain hStep := Option.some.inj hStep
    unfold take at hStep
    refine congrArg some ?_
    rw [take, h.mode_eq]
    split at hStep
    · cases hStep
      rw [h.offset_eq]
      rfl
    · rename_i kind length _
      dsimp only at hStep ⊢
      have hMoved : (⟨kind, c :: t.take (length - 1), s'.offset⟩ : Token) =
          Token.moved n ⟨kind, c :: t.take (length - 1), s.offset⟩ := by
        rw [h.offset_eq]
        rfl
      split at hStep
      · rename_i hShift
        cases hStep
        rw [hMoved, h.shift_error hShift]
      · cases hStep

/-- The run lemma: a scan that is moved takes the same tokens, moved. -/
theorem Moved.passes (h : Moved n kept s s') (hPasses : Passes s ts t) :
    ∃ t', Passes s' (ts.map (Token.moved n)) t' ∧ Moved n kept t t' := by
  induction hPasses generalizing s' with
  | done => exact ⟨s', .done, h⟩
  | step hStep _ ih =>
      obtain ⟨next', hStep', hNext⟩ := h.step_ok hStep
      obtain ⟨t', hRest, hLast⟩ := ih hNext
      exact ⟨t', .step hStep' hRest, hLast⟩

/-- How far a scan gets does not depend on the offset at which it starts. -/
theorem Passes.moved (h : Passes s ts s') (n : Nat) :
    ∃ t, Passes { s with offset := s.offset + n } (ts.map (Token.moved n)) t ∧
      t.rest = s'.rest ∧ t.top.mode = s'.top.mode := by
  obtain ⟨t, hPasses, hMoved⟩ := (moved_of_rest s n).passes h
  exact ⟨t, hPasses, hMoved.rest_eq, hMoved.mode_eq⟩

/-- What a run makes of a source is what it makes of the rest, behind the tokens it passes over. -/
theorem Passes.run_map (h : Passes s ts s') : s.run = s'.run.map (ts ++ ·) := by
  induction h with
  | done =>
      rename_i s
      cases s.run <;> rfl
  | @step _ _ s'' _ _ hStep _ ih =>
      rw [run_of_step_eq_ok hStep, ih]
      cases s''.run <;> rfl

/-- A run that succeeds finds the same tokens when it is moved. -/
theorem Moved.run_ok (h : Moved n kept s s') (hRun : s.run = .ok tokens) :
    s'.run = .ok (tokens.map (Token.moved n)) := by
  obtain ⟨front, t, hPasses, hNil, hMode, rfl⟩ := passes_of_run hRun
  obtain ⟨t', hPasses', hLast⟩ := h.passes hPasses
  have hStep : t'.step = none := step_eq_none_iff.mpr (hLast.rest_eq.trans hNil)
  have hFinish : t'.finish = .ok [⟨.eof, [], t'.offset⟩] :=
    finish_eq_ok_iff.mpr ⟨hLast.mode_eq.trans hMode, rfl⟩
  rw [hPasses'.run_map, run_of_step_eq_none hStep, hFinish, hLast.offset_eq, List.map_append]
  rfl

/-- A run that fails fails in the same way when it is moved, if no mode is kept in its place that
can be left open. -/
theorem Moved.run_error (h : Moved n (fun f => f.mode = .selector) s s') {e : LexError}
    (hRun : s.run = .error e) : s'.run = .error (e.moved n) := by
  obtain ⟨front, t, hPasses, ⟨hNone, hEnd⟩ | ⟨fault, hError, hEnd⟩⟩ := exists_passes s
  · obtain ⟨t', hPasses', hLast⟩ := h.passes hPasses
    have hStep : t'.step = none :=
      step_eq_none_iff.mpr (hLast.rest_eq.trans (step_eq_none_iff.mp hNone))
    rw [hRun, finish] at hEnd
    split at hEnd
    · cases hEnd
    · rename_i hMode
      cases hEnd
      obtain ⟨hTop, -⟩ := List.forall₂_cons.mp hLast.frames
      have hMoved : t'.top = t.top.moved n := hTop.resolve_right fun hKept => hMode hKept.1
      rw [hPasses'.run_map, run_of_step_eq_none hStep, finish, hLast.mode_eq, if_neg hMode, hMoved]
      rfl
  · obtain ⟨t', hPasses', hLast⟩ := h.passes hPasses
    rw [hRun] at hEnd
    obtain rfl := Except.error.inj hEnd
    rw [hPasses'.run_map, run_of_step_eq_error (hLast.step_error hError)]
    rfl

end Scan

end SelectorXPath
