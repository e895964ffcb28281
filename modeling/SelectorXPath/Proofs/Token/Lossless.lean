import SelectorXPath.Proofs.Token.Local
import SelectorXPath.Proofs.Token.Passage

/-! Nothing of a source is lost when it is cut into tokens. A token has text, and its text is what
the source holds at its offset; every step of a scan takes one such token off what is left. So a
scan comes to an end, and when it succeeds its tokens are the source again, each beginning where the
one in front of it stops. -/

namespace SelectorXPath

open SelectorXPath.Text

namespace Text

/-- No text begins inside a character. -/
theorem fromByte?_eq_none_of_inside {front rest : Text} {c : Char} {offset : Nat}
    (hAfter : byteLength front < offset) (hBefore : offset < byteLength front + c.utf8Size) :
    fromByte? (front ++ c :: rest) offset = none := by
  cases hFound : fromByte? (front ++ c :: rest) offset with
  | none => rfl
  | some back =>
      obtain ⟨front', hText, hOffset⟩ := fromByte?_eq_some_iff.mp hFound
      rcases List.append_eq_append_iff.mp hText with ⟨more, hFront, hMore⟩ | ⟨more, hFront, -⟩
      · rw [hFront, byteLength_append] at hOffset
        cases more with
        | nil =>
            rw [byteLength] at hOffset
            omega
        | cons d more =>
            obtain ⟨rfl, -⟩ := List.cons.inj hMore
            rw [byteLength] at hOffset
            omega
      · rw [hFront, byteLength_append] at hAfter
        omega

/-- Past the last character there is nothing. -/
theorem fromByte?_eq_none_or_nil {t : Text} {offset : Nat} (h : byteLength t ≤ offset) :
    fromByte? t offset = none ∨ fromByte? t offset = some [] := by
  cases hFound : fromByte? t offset with
  | none => exact Or.inl rfl
  | some back =>
      obtain ⟨front, rfl, hOffset⟩ := fromByte?_eq_some_iff.mp hFound
      rw [byteLength_append] at h
      cases back with
      | nil => exact Or.inr rfl
      | cons c back =>
          have hSize := c.utf8Size_pos
          rw [byteLength] at h
          omega

theorem byteLength_pos {t : Text} (h : t ≠ []) : 0 < byteLength t := by
  cases t with
  | nil => exact absurd rfl h
  | cons c t => exact Nat.add_pos_left c.utf8Size_pos _

end Text

/-- The token has text, and it is what the source holds at the offset. Where the token stops the
source goes on with a whole character, or ends. -/
structure Token.StandsAt (source : Text) (offset : Nat) (token : Token) : Prop where
  offset_eq : token.offset = offset
  text_ne_nil : token.text ≠ []
  text_eq : ∃ back, fromByte? source offset = some (token.text ++ back) ∧
    fromByte? source token.stop = some back

namespace Mode

variable {mode : Mode} {source : Text} {offset : Nat}

theorem recognize?_nil (mode : Mode) : mode.recognize? [] = none := by
  cases mode <;> rfl

/-- The first token that is found in a text, and the text that is left behind it. -/
theorem recognize?_take {t : Text} {kind : Token.Kind} {n : Nat}
    (h : mode.recognize? t = some (kind, n)) :
    ∃ c back, t = c :: back ∧ t.take n = c :: back.take (n - 1) ∧ t.drop n = back.drop (n - 1) := by
  cases t with
  | nil =>
      rw [recognize?_nil] at h
      cases h
  | cons c back =>
      obtain ⟨hPos, -⟩ := length_of_recognize? h
      obtain ⟨k, rfl⟩ := Nat.exists_eq_succ_of_ne_zero (Nat.ne_of_gt hPos)
      exact ⟨c, back, rfl, rfl, rfl⟩

/-- A token at an offset is the text that the source holds there. -/
theorem standsAt_of_tokenAt? {token : Token} (h : mode.tokenAt? source offset = some token) :
    token.StandsAt source offset := by
  simp only [tokenAt?, Option.bind_eq_bind, Option.bind_eq_some_iff, Option.pure_def,
    Option.some.injEq, Prod.exists] at h
  obtain ⟨rest, hRest, kind, n, hKind, rfl⟩ := h
  obtain ⟨c, back, -, hTake, -⟩ := recognize?_take hKind
  refine ⟨rfl, ?_, rest.drop n, ?_, ?_⟩
  · show rest.take n ≠ []
    rw [hTake]
    exact List.cons_ne_nil _ _
  · rw [hRest, List.take_append_drop]
  · obtain ⟨front, hSource, hFront⟩ := fromByte?_eq_some_iff.mp hRest
    apply fromByte?_eq_some_iff.mpr
    refine ⟨front ++ rest.take n, ?_, ?_⟩
    · rw [List.append_assoc, List.take_append_drop, hSource]
    · rw [byteLength_append, hFront]
      rfl

/-- Inside of a character no token begins. -/
theorem tokenAt?_of_inside {front rest : Text} {c : Char}
    (hAfter : byteLength front < offset) (hBefore : offset < byteLength front + c.utf8Size) :
    mode.tokenAt? (front ++ c :: rest) offset = none := by
  rw [tokenAt?, fromByte?_eq_none_of_inside hAfter hBefore]
  rfl

/-- Behind the end no token begins. -/
theorem tokenAt?_of_past (h : byteLength source ≤ offset) : mode.tokenAt? source offset = none := by
  rcases fromByte?_eq_none_or_nil h with hNone | hNil
  · rw [tokenAt?, hNone]
    rfl
  · rw [tokenAt?, hNil]
    show (mode.recognize? []).bind _ = none
    rw [recognize?_nil]
    rfl

end Mode

/-- Tokens that stand one behind the other, the first of them at the offset. -/
def Adjacent : Nat → List Token → Prop
  | _, [] => True
  | offset, t :: ts => t.offset = offset ∧ Adjacent t.stop ts

/-- Tokens stand one behind the other if the second half begins where the first one stops. -/
theorem adjacent_append {offset : Nat} {ts us : List Token} :
    Adjacent offset (ts ++ us) ↔
      Adjacent offset ts ∧ Adjacent (offset + byteLength (ts.flatMap Token.text)) us := by
  induction ts generalizing offset with
  | nil => simp [Adjacent, byteLength]
  | cons t ts ih =>
      simp only [List.cons_append, Adjacent, ih, and_assoc, List.flatMap_cons, byteLength_append,
        ← Nat.add_assoc]
      apply and_congr_right
      intro hOffset
      rw [Token.stop, Token.byteLength, hOffset]

/-- No token stands in front of the offset at which they begin. -/
theorem le_offset_of_adjacent {offset : Nat} {ts : List Token} (h : Adjacent offset ts) :
    ∀ t ∈ ts, offset ≤ t.offset := by
  induction ts generalizing offset with
  | nil => simp
  | cons t ts ih =>
      obtain ⟨rfl, hRest⟩ := h
      refine List.forall_mem_cons.mpr ⟨Nat.le_refl _, fun u hu => ?_⟩
      exact Nat.le_trans (Nat.le_add_right _ _) (ih hRest u hu)

/-- No two of them overlap. -/
theorem pairwise_of_adjacent {offset : Nat} {ts : List Token} (h : Adjacent offset ts) :
    ts.Pairwise fun t u => t.stop ≤ u.offset := by
  induction ts generalizing offset with
  | nil => exact List.Pairwise.nil
  | cons t ts ih => exact List.Pairwise.cons (le_offset_of_adjacent h.2) (ih h.2)

/-- A token with text stops behind the place where it begins. -/
theorem Token.offset_lt_stop {t : Token} (h : t.text ≠ []) : t.offset < t.stop :=
  Nat.lt_add_of_pos_right (byteLength_pos h)

/-- The source in pieces, and behind them the mark of its end. -/
structure CutInto (source : Text) (tokens : List Token) : Prop where
  text_eq : tokens.flatMap Token.text = source
  adjacent : Adjacent 0 tokens
  ends : ∃ front, tokens = front ++ [⟨.eof, [], byteLength source⟩] ∧ ∀ t ∈ front, t.kind ≠ .eof

namespace Scan

variable {s s' : Scan} {token : Token} {ts : List Token}

/-- The token begins where the scan stood, and its text is what the scan took off the source. -/
structure Takes (s : Scan) (token : Token) (s' : Scan) : Prop where
  rest_eq : s.rest = token.text ++ s'.rest
  start_eq : token.offset = s.offset
  stop_eq : s'.offset = token.stop
  text_ne_nil : token.text ≠ []

/-- What one step of a scan takes. All that a scan leaves behind follows from it by induction. -/
theorem takes_of_step (h : s.step = some (.ok (token, s'))) : s.Takes token s' := by
  obtain ⟨c, t, length, hRest, -, hToken, -, hNext, hOffset⟩ := step_eq_some_ok h
  have hText : token.text = c :: t.take (length - 1) := by rw [hToken]
  refine ⟨?_, ?_, hOffset, ?_⟩
  · rw [hRest, hText, hNext, List.cons_append, List.take_append_drop]
  · rw [hToken]
  · rw [hText]
    exact List.cons_ne_nil _ _

/-- A scan that stands where its rest begins takes the token that its mode has there. -/
theorem tokenAt?_of_step {source : Text} (hRest : fromByte? source s.offset = some s.rest)
    (h : s.step = some (.ok (token, s'))) :
    s.top.mode.tokenAt? source s.offset = some token := by
  obtain ⟨c, t, length, hText, hKind, hToken, -⟩ := step_eq_some_ok h
  obtain ⟨c', t', hSame, hTake, -⟩ := Mode.recognize?_take hKind
  obtain ⟨rfl, rfl⟩ := List.cons.inj hSame
  rw [Mode.tokenAt?, hRest, hText]
  show (s.top.mode.recognize? (c :: t)).bind _ = some token
  rw [hKind, hToken]
  show some _ = some _
  rw [hTake]

/-- The tokens that are taken make up what has gone from the source. -/
theorem Passes.rest_eq (h : Passes s ts s') : s.rest = ts.flatMap Token.text ++ s'.rest := by
  induction h with
  | done => rfl
  | step hStep _ ih =>
      rw [List.flatMap_cons, List.append_assoc, ← ih]
      exact (takes_of_step hStep).rest_eq

theorem Passes.text_eq (h : Passes s ts s') (hRest : s'.rest = []) :
    s.rest = ts.flatMap Token.text := by
  rw [h.rest_eq, hRest, List.append_nil]

/-- The scan stands behind the text of the tokens that were taken. -/
theorem Passes.offset_eq (h : Passes s ts s') :
    s'.offset = s.offset + byteLength (ts.flatMap Token.text) := by
  induction h with
  | done => rfl
  | step hStep _ ih =>
      have hTakes := takes_of_step hStep
      rw [ih, hTakes.stop_eq, Token.stop, hTakes.start_eq, List.flatMap_cons, byteLength_append,
        Token.byteLength, Nat.add_assoc]

/-- Tokens that are taken one after the other stand one behind the other. -/
theorem Passes.adjacent (h : Passes s ts s') : Adjacent s.offset ts := by
  induction h with
  | done => trivial
  | step hStep _ ih =>
      have hTakes := takes_of_step hStep
      rw [hTakes.stop_eq] at ih
      exact ⟨hTakes.start_eq, ih⟩

/-- Each token takes a byte at least. -/
theorem Passes.length_le (h : Passes s ts s') : ts.length ≤ byteLength s.rest := by
  induction h with
  | done => exact Nat.zero_le _
  | step hStep _ ih =>
      have hTakes := takes_of_step hStep
      have hPos := byteLength_pos hTakes.text_ne_nil
      rw [hTakes.rest_eq, byteLength_append, List.length_cons]
      omega

/-- A scan stands where its rest begins, all the way from the start of the source. -/
theorem Passes.fromByte?_eq {source : Text} (h : Passes (start source) ts s) :
    fromByte? source s.offset = some s.rest := by
  apply fromByte?_eq_some_iff.mpr
  refine ⟨ts.flatMap Token.text, h.rest_eq, ?_⟩
  rw [h.offset_eq]
  exact (Nat.zero_add _).symm

theorem Passes.text_ne_nil_of_mem (h : Passes s ts s') : ∀ t ∈ ts, t.text ≠ [] := by
  induction h with
  | done => simp
  | step hStep _ ih => exact List.forall_mem_cons.mpr ⟨(takes_of_step hStep).text_ne_nil, ih⟩

/-- The mark of the end is not taken off the source. -/
theorem Passes.kind_ne_eof (h : Passes s ts s') : ∀ t ∈ ts, t.kind ≠ .eof := by
  induction h with
  | done => simp
  | step hStep _ ih =>
      exact List.forall_mem_cons.mpr ⟨(recognized_of_step hStep).kind_ne_eof, ih⟩

theorem run_of_step_eq_none (h : s.step = none) : s.run = s.finish := by
  rw [run]
  split
  · rfl
  all_goals
    rename_i hStep
    rw [h] at hStep
    cases hStep

theorem run_of_step_eq_error {e : LexError} (h : s.step = some (.error e)) :
    s.run = .error e := by
  rw [run]
  split
  case h_2 hStep =>
    rw [h] at hStep
    cases hStep
    rfl
  all_goals
    rename_i hStep
    rw [h] at hStep
    cases hStep

theorem run_of_step_eq_ok (h : s.step = some (.ok (token, s'))) :
    s.run = s'.run.map (token :: ·) := by
  rw [run]
  split
  case h_3 hStep =>
    rw [h] at hStep
    cases hStep
    rfl
  all_goals
    rename_i hStep
    rw [h] at hStep
    cases hStep

/-- A scan gets, token by token, to where it stops. Either nothing is left there, and it ends with
the tokens taken so far, or the next character is in the way. -/
theorem exists_passes (s : Scan) :
    ∃ ts s', Passes s ts s' ∧
      (s'.step = none ∧ s.run = s'.finish.map (ts ++ ·) ∨
        ∃ e, s'.step = some (.error e) ∧ s.run = .error e) := by
  cases hStep : s.step with
  | none =>
      refine ⟨[], s, .done, Or.inl ⟨hStep, ?_⟩⟩
      rw [run_of_step_eq_none hStep]
      cases s.finish <;> rfl
  | some result =>
      cases result with
      | error e => exact ⟨[], s, .done, Or.inr ⟨e, hStep, run_of_step_eq_error hStep⟩⟩
      | ok taken =>
          obtain ⟨token, next⟩ := taken
          obtain ⟨ts, s', hPasses, hEnd⟩ := exists_passes next
          refine ⟨token :: ts, s', .step hStep hPasses, ?_⟩
          rw [run_of_step_eq_ok hStep]
          rcases hEnd with ⟨hNone, hRun⟩ | ⟨e, hError, hRun⟩
          · refine Or.inl ⟨hNone, ?_⟩
            rw [hRun]
            cases s'.finish <;> rfl
          · exact Or.inr ⟨e, hError, by rw [hRun]; rfl⟩
termination_by s.rest.length
decreasing_by exact length_rest_of_step hStep

/-- A scan that succeeds passes over all of its source, and comes back to the outermost mode. -/
theorem passes_of_run {tokens : List Token} (h : s.run = .ok tokens) :
    ∃ front s', Passes s front s' ∧ s'.rest = [] ∧ s'.top.mode = .selector ∧
      tokens = front ++ [⟨.eof, [], s'.offset⟩] := by
  obtain ⟨front, s', hPasses, ⟨hNone, hRun⟩ | ⟨e, -, hRun⟩⟩ := exists_passes s
  · cases hFinish : s'.finish with
    | error e =>
        rw [h, hFinish] at hRun
        cases hRun
    | ok ending =>
        obtain ⟨hMode, rfl⟩ := finish_eq_ok_iff.mp hFinish
        rw [h, hFinish] at hRun
        exact ⟨front, s', hPasses, step_eq_none_iff.mp hNone, hMode, Except.ok.inj hRun⟩
  · rw [h] at hRun
    cases hRun

end Scan

/-- The tokens of a source that is scanned without error are its pieces. -/
theorem cutInto_of_tokenize {source : Text} {tokens : List Token}
    (h : tokenize source = .ok tokens) : CutInto source tokens := by
  obtain ⟨front, s, hPasses, hRest, -, rfl⟩ := Scan.passes_of_run h
  have hText : source = front.flatMap Token.text := hPasses.text_eq hRest
  have hOffset : s.offset = byteLength source := by
    rw [hPasses.offset_eq, hText]
    exact Nat.zero_add _
  refine ⟨?_, ?_, front, ?_, hPasses.kind_ne_eof⟩
  · rw [List.flatMap_append, ← hText]
    exact List.append_nil source
  · apply adjacent_append.mpr
    exact ⟨hPasses.adjacent, hPasses.offset_eq, trivial⟩
  · rw [hOffset]

/-- Scanning is lossless and gets on. The token of a mode at an offset stands there, and there is
none inside a character or past the end. A scan takes these tokens, not more than the source has
bytes, up to where it stops; and when it succeeds it has cut the source into pieces. -/
theorem tokenize_lossless (source : Text) :
    (∀ (mode : Mode) (offset : Nat),
      (∀ token, mode.tokenAt? source offset = some token → token.StandsAt source offset) ∧
      (∀ front c rest, source = front ++ c :: rest → byteLength front < offset →
        offset < byteLength front + c.utf8Size → mode.tokenAt? source offset = none) ∧
      (byteLength source ≤ offset → mode.tokenAt? source offset = none)) ∧
    (∀ ts s, Scan.Passes (.start source) ts s → ts.length ≤ byteLength source ∧
      ∀ token next, s.step = some (.ok (token, next)) →
        s.top.mode.tokenAt? source s.offset = some token) ∧
    (∃ ts s, Scan.Passes (.start source) ts s ∧ ∀ token next,
      s.step ≠ some (.ok (token, next))) ∧
    ∀ tokens, tokenize source = .ok tokens → CutInto source tokens := by
  refine ⟨?_, ?_, ?_, fun tokens => cutInto_of_tokenize⟩
  · intro mode offset
    refine ⟨fun token => Mode.standsAt_of_tokenAt?, ?_, Mode.tokenAt?_of_past⟩
    rintro front c rest rfl hAfter hBefore
    exact Mode.tokenAt?_of_inside hAfter hBefore
  · intro ts s hPasses
    exact ⟨hPasses.length_le, fun token next => Scan.tokenAt?_of_step hPasses.fromByte?_eq⟩
  · obtain ⟨ts, s, hPasses, hEnd⟩ := Scan.exists_passes (.start source)
    refine ⟨ts, s, hPasses, fun token next hStep => ?_⟩
    rcases hEnd with ⟨hNone, -⟩ | ⟨e, hError, -⟩
    · rw [hNone] at hStep
      cases hStep
    · rw [hError] at hStep
      cases hStep

/-- A computation that is known to succeed has a value. -/
theorem exists_ok_of_isOk {ε α : Type} {x : Except ε α} (h : x.isOk = true) : ∃ a, x = .ok a := by
  cases x with
  | error e => cases h
  | ok a => exact ⟨a, rfl⟩

/-- Characters of one, two and three bytes, a bracket and a quotation mark inside of a string, and a
comment up to the end. -/
theorem tokenize_lossless_of_nested :
    (tokenize "é:not([b='\\']'])/*€*/".toList).isOk = true ∧
      (∃ tokens, tokenize "é:not([b='\\']'])/*€*/".toList = .ok tokens ∧
        CutInto "é:not([b='\\']'])/*€*/".toList tokens) ∧
      Mode.selector.tokenAt? "é:not([b='\\']'])/*€*/".toList 1 = none ∧
      Mode.comment.tokenAt? "é:not([b='\\']'])/*€*/".toList 25 = none := by
  have hOk : (tokenize "é:not([b='\\']'])/*€*/".toList).isOk = true := by decide +kernel
  obtain ⟨tokens, hTokens⟩ := exists_ok_of_isOk hOk
  obtain ⟨hModes, -, -, hCut⟩ := tokenize_lossless "é:not([b='\\']'])/*€*/".toList
  refine ⟨hOk, ⟨tokens, hTokens, hCut tokens hTokens⟩, ?_, ?_⟩
  · exact (hModes .selector 1).2.1 [] 'é' _ rfl (by decide) (by decide)
  · exact (hModes .comment 25).2.2 (by decide +kernel)

end SelectorXPath
