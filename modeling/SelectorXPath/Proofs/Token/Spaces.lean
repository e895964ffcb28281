import SelectorXPath.Proofs.Token.Respaced

/-! White space put into a source, at its ends or next to a combinator or a comma. In front of them
white space may close an escape; then it goes into the token that ends there, which means the same.
Otherwise it is a token of its own, or a part of the white space that stands there already. The
other tokens are only moved. -/

namespace SelectorXPath

open SelectorXPath.Text

variable {ws : Text} {b : Char}

/-- A text begins with its white space, and no more of it follows. -/
theorem Text.exists_blanks (text : Text) : ∃ run rest, text = run ++ rest ∧
    (∀ c ∈ run, isBlank c = true) ∧ blankLength rest = 0 := by
  refine ⟨text.takeWhile isBlank, text.dropWhile isBlank, ?_, ?_, ?_⟩
  · exact List.takeWhile_append_dropWhile.symm
  · exact fun c hc => List.mem_takeWhile_imp hc
  · have hHead := List.head?_dropWhile_not isBlank text
    cases hText : text.dropWhile isBlank with
    | nil => rfl
    | cons c rest =>
        rw [hText] at hHead
        have hFirst : isBlank c = false := hHead
        simp [blankLength, hFirst]

namespace Scan

open Token

variable {s s₁ next : Scan} {token : Token} {ts : List Token} {rest u : Text} {offset : Nat}
  {top : Frame} {below : List Frame}

/-- Blanks in a row are one token, and the modes stay as they are. -/
theorem step_blanks (hMode : top.mode.HoldsSelectors) (hSome : ws ≠ [])
    (hBlank : ∀ c ∈ ws, isBlank c = true) (hRest : blankLength rest = 0) :
    (⟨ws ++ rest, offset, top, below⟩ : Scan).step = some (.ok (⟨.whitespace, ws, offset⟩,
      ⟨rest, offset + ws.byteLength, top, below⟩)) := by
  have hKeeps : top.mode.Keeps .whitespace :=
    Mode.keeps_of_mem (Or.inl hMode) (by simp [Mode.keptKinds])
  refine step_of_text rfl hSome ?_ (shift_of_kept hKeeps.closed hKeeps.opened)
  obtain ⟨c, t, rfl⟩ := List.exists_cons_of_ne_nil hSome
  obtain ⟨hFirst, hMore⟩ := List.forall_mem_cons.mp hBlank
  exact Mode.recognize?_blanks hMode hFirst hMore hRest

/-- The token behind which nothing is left is all that was left before. -/
theorem recognize?_of_last (hStep : s.step = some (.ok (token, next))) (hRest : next.rest = []) :
    s.top.mode.recognize? token.text = some (token.kind, token.text.length) := by
  obtain ⟨c, t, length, hText, hKind, -, -, hNext, -⟩ := step_eq_some_ok hStep
  have hWhole : token.text = c :: t := by
    rw [← hText, (takes_of_step hStep).rest_eq, hRest, List.append_nil]
  have hLength : length = (c :: t).length := by
    have hInside := Mode.length_of_recognize? hKind
    rw [hNext, List.drop_eq_nil_iff] at hRest
    rw [List.length_cons] at hInside ⊢
    omega
  rw [hWhole, hKind, hLength]

/-- A mode that holds text is left by the token that closes it. -/
theorem holdsText_or_isClosedBy (hStep : s.step = some (.ok (token, next)))
    (hMode : next.top.mode.holdsText = false) :
    s.top.mode.holdsText = false ∨ s.top.mode.isClosedBy token.kind = true := by
  obtain hClosed | ⟨hString, hComment⟩ := Passes.isHeld hStep .done hMode
  · exact Or.inr hClosed
  · left
    cases hTop : s.top.mode with
    | string mark => exact absurd rfl (hString mark hTop)
    | comment =>
        obtain ⟨_, hMore⟩ := hComment hTop
        cases hMore
    | _ => rfl

/-- A blank behind the last token is left over, or it goes into the token. -/
theorem step_append_blank (hStep : s.step = some (.ok (token, next))) (hRest : next.rest = [])
    (hMode : next.top.mode.holdsText = false) (hBlank : isBlank b = true) :
    ({ s with rest := token.text ++ [b] } : Scan).step =
        some (.ok (token, { next with rest := [b] })) ∨
      ∃ token', Alike token token' ∧ ({ s with rest := token.text ++ [b] } : Scan).step =
        some (.ok (token', { next with offset := next.offset + byteLength [b] })) := by
  obtain ⟨c, t, -, hText, -, -, hShift, -, hOffset⟩ := step_eq_some_ok hStep
  have hWhole : token.text = c :: t := by
    rw [← hText, (takes_of_step hStep).rest_eq, hRest, List.append_nil]
  have hKind := recognize?_of_last hStep hRest
  have hEnd := holdsText_or_isClosedBy hStep hMode
  rw [hWhole] at hKind
  obtain ⟨kind, text, offset⟩ := token
  obtain ⟨nextRest, nextOffset, top, below⟩ := next
  obtain rfl : text = c :: t := hWhole
  obtain rfl : nextRest = [] := hRest
  obtain rfl : offset = s.offset := (takes_of_step hStep).start_eq
  obtain rfl : nextOffset = (⟨kind, c :: t, s.offset⟩ : Token).stop := hOffset
  have hCases := shift_eq_ok_iff.mp hShift
  have hShift' (p rest : Text) :
      ({ s with rest := rest } : Scan).shift ⟨kind, p, s.offset⟩ = .ok (top, below) :=
    shift_eq_ok_iff.mpr hCases
  rcases Mode.recognize?_append_blank hKind hEnd hBlank with hSame | ⟨hMore, hMeaning⟩
  · exact Or.inl (step_of_text (s := { s with rest := c :: t ++ [b] }) rfl (List.cons_ne_nil _ _)
      hSame (hShift' _ _))
  · have hLonger : s.top.mode.recognize? (c :: t ++ [b] ++ []) =
        some (kind, (c :: t ++ [b]).length) := by
      rw [List.append_nil, List.length_append]
      exact hMore
    have hStop : (⟨kind, c :: t ++ [b], s.offset⟩ : Token).stop =
        (⟨kind, c :: t, s.offset⟩ : Token).stop + byteLength [b] := by
      simp only [Token.stop, Token.byteLength, byteLength_append, Nat.add_assoc]
    refine Or.inr ⟨⟨kind, c :: t ++ [b], s.offset⟩,
      ⟨rfl, hMeaning, AnPlusB.compact_append_blanks _ (by simpa using hBlank)⟩, ?_⟩
    rw [← hStop]
    exact step_of_text (s := { s with rest := c :: t ++ [b] }) (List.append_nil _).symm
      (List.cons_ne_nil _ _) hLonger (hShift' _ _)

/-- A blank behind all tokens. -/
theorem Passes.append_blank (h : Passes s ts s₁) (hRest : s₁.rest = [])
    (hMode : s₁.top.mode.HoldsSelectors) (hBlank : isBlank b = true) :
    ∃ us, Passes { s with rest := s.rest ++ [b] } us
      { s₁ with offset := s₁.offset + byteLength [b] } ∧ Padded ts us := by
  have hHeld := hMode.holdsText
  have hAll : ∀ c ∈ [b], isBlank c = true := by simpa using hBlank
  obtain ⟨rest, offset, top, below⟩ := s₁
  obtain rfl : rest = [] := hRest
  have hLast : (⟨[b], offset, top, below⟩ : Scan).step = some (.ok (⟨.whitespace, [b], offset⟩,
      ⟨[], offset + byteLength [b], top, below⟩)) :=
    step_blanks hMode (List.cons_ne_nil _ _) hAll rfl
  rw [h.text_eq rfl]
  rcases List.eq_nil_or_concat ts with rfl | ⟨front, token, rfl⟩
  · cases h
    exact ⟨_, .step hLast .done, .spaces (spaces_blanks hAll offset)⟩
  · rw [List.concat_eq_append] at h ⊢
    obtain ⟨middle, hFront, hBack⟩ := h.cut
    obtain ⟨_, hStep, hDone⟩ : ∃ next, middle.step = some (.ok (token, next)) ∧
        Passes next [] ⟨[], offset, top, below⟩ := by
      cases hBack with
      | step hStep hDone => exact ⟨_, hStep, hDone⟩
    cases hDone
    have hFront' := hFront.swap (.step hStep .done) hHeld (isMark_head hBlank [])
      fun _ _ _ => List.cons_ne_nil _ _
    rw [List.flatMap_append, List.append_assoc]
    rw [List.flatMap_singleton] at hFront' ⊢
    rcases step_append_blank hStep rfl hHeld hBlank with hSame | ⟨token', hAlike, hMore⟩
    · refine ⟨_, hFront'.trans (.step hSame (.step hLast .done)), ?_⟩
      exact Padded.append (.cons (.refl token) (.spaces (spaces_blanks hAll offset))) front
    · refine ⟨_, hFront'.trans (.step hMore .done), ?_⟩
      exact Padded.append (.cons hAlike (.spaces .nil)) front

/-- White space behind all tokens. -/
theorem Passes.append_blanks (h : Passes s ts s₁) (hRest : s₁.rest = [])
    (hMode : s₁.top.mode.HoldsSelectors) (hBlank : ∀ c ∈ ws, isBlank c = true) :
    ∃ us, Passes { s with rest := s.rest ++ ws } us
      { s₁ with offset := s₁.offset + byteLength ws } ∧ Padded ts us := by
  induction ws generalizing s ts s₁ with
  | nil =>
      rw [List.append_nil]
      exact ⟨ts, h, .refl ts⟩
  | cons b ws ih =>
      obtain ⟨hFirst, hMore⟩ := List.forall_mem_cons.mp hBlank
      obtain ⟨us, hPasses, hPadded⟩ := h.append_blank hRest hMode hFirst
      obtain ⟨vs, hPasses', hPadded'⟩ := ih hPasses hRest hMode hMore
      refine ⟨vs, ?_, hPadded.trans hPadded'⟩
      rw [List.append_cons]
      simpa [Text.byteLength, Nat.add_assoc] using hPasses'

/-- White space behind some tokens, in front of a character that ends a token and is no blank. -/
theorem Passes.padded (h : Passes s ts s₁) (hMode : s₁.top.mode.HoldsSelectors)
    (hBlank : ∀ c ∈ ws, isBlank c = true)
    (hRest : ∀ c ∈ s₁.rest.head?, isMark c = true ∧ isBlank c = false) :
    ∃ us, Passes { s with rest := ts.flatMap Token.text ++ (ws ++ s₁.rest) } us
      { s₁ with offset := s₁.offset + byteLength ws } ∧ Padded ts us := by
  have hHeld := hMode.holdsText
  have hAlone : Passes { s with rest := ts.flatMap Token.text ++ [] } ts { s₁ with rest := [] } :=
    h.swap .done hHeld (by simp) (by simp)
  obtain ⟨us, hPadded, hAlike⟩ := hAlone.append_blanks rfl hMode hBlank
  have hBehind := hPadded.swap .done hHeld (fun c hc => (hRest c hc).1) fun c hc hWhite => by
    rw [(hRest c hc).2] at hWhite
    cases hWhite
  have hText : ts.flatMap Token.text ++ [] ++ ws = us.flatMap Token.text := hPadded.text_eq rfl
  refine ⟨us, ?_, hAlike⟩
  rw [List.append_nil] at hText
  rw [← List.append_assoc, hText]
  exact hBehind

/-- White space in front of all tokens. What is white space already becomes one token with it. -/
theorem Passes.preceded (h : Passes s ts s₁) (hRest : s₁.rest = [])
    (hMode : s.top.mode.HoldsSelectors) (hSome : ws ≠ []) (hBlank : ∀ c ∈ ws, isBlank c = true) :
    ∃ spaces us s₂, Passes { s with rest := ws ++ s.rest } (spaces ++ us) s₂ ∧ s₂.rest = [] ∧
      s₂.top.mode = s₁.top.mode ∧ Spaces spaces ∧ Respaced ts us := by
  obtain ⟨text, offset, top, below⟩ := s
  obtain ⟨run, rest, rfl, hRun, hStop⟩ := exists_blanks text
  have hStart : Passes ⟨ws ++ (run ++ rest), offset, top, below⟩ [⟨.whitespace, ws ++ run, offset⟩]
      ⟨rest, offset + (ws ++ run).byteLength, top, below⟩ := by
    rw [← List.append_assoc]
    have hAll : ∀ c ∈ ws ++ run, isBlank c = true := List.forall_mem_append.mpr ⟨hBlank, hRun⟩
    exact .step (step_blanks hMode (by simp [hSome]) hAll hStop) .done
  by_cases hNone : run = []
  · subst hNone
    obtain ⟨s₂, hPasses, hEnd, hTop⟩ := h.moved (byteLength ws)
    rw [List.append_nil] at hStart
    exact ⟨_, _, s₂, hStart.trans hPasses, hEnd.trans hRest, hTop, spaces_blanks hBlank offset,
      respaced_moved _ ts⟩
  · have hOld : (⟨run ++ rest, offset, top, below⟩ : Scan).step =
        some (.ok (⟨.whitespace, run, offset⟩, ⟨rest, offset + run.byteLength, top, below⟩)) :=
      step_blanks hMode hNone hRun hStop
    cases h with
    | done => exact absurd hRest (by simp [hNone])
    | step hStep hMore =>
        rw [hOld] at hStep
        cases hStep
        obtain ⟨s₂, hPasses, hEnd, hTop⟩ := hMore.moved (byteLength ws)
        have hOffset : offset + (ws ++ run).byteLength =
            offset + run.byteLength + ws.byteLength := by
          rw [byteLength_append]
          omega
        rw [hOffset] at hStart
        refine ⟨[], _, s₂, hStart.trans hPasses, hEnd.trans hRest, hTop, .nil,
          .cons ⟨rfl, rfl, ?_⟩ (respaced_moved _ _)⟩
        rw [AnPlusB.compact_append, AnPlusB.compact_of_isBlank hBlank]
        rfl

variable {c : Char} {kind : Kind} {front more : List Token}

/-- White space in front of a sign. -/
theorem Passes.before_sign (hFront : Passes s front ⟨c :: rest, offset, top, below⟩)
    (hBack : Passes ⟨rest, offset + 1, top, below⟩ more s₁) (hSign : Mode.IsSign c kind)
    (hKind : kind = .combinator ∨ kind = .separator) (hMode : top.mode.HoldsSelectors)
    (hBlank : ∀ c ∈ ws, isBlank c = true) :
    ∃ us s₂, Passes { s with rest := front.flatMap Token.text ++ (ws ++ c :: rest) } us s₂ ∧
      s₂.rest = s₁.rest ∧ s₂.top.mode = s₁.top.mode ∧
      Respaced (front ++ ⟨kind, [c], offset⟩ :: more) us := by
  obtain ⟨us, hPadded, hAlike⟩ := hFront.padded hMode hBlank (by
    rintro _ ⟨⟩
    exact ⟨hSign.mark, hSign.blank⟩)
  obtain ⟨s₂, hMoved, hRest, hTop⟩ := hBack.moved (byteLength ws)
  rw [Nat.add_right_comm] at hMoved
  have hStep := step_sign hSign hMode rest (offset + byteLength ws) below
  refine ⟨_, s₂, hPadded.trans (.step hStep hMoved), hRest, hTop, ?_⟩
  exact Respaced.padded hAlike hKind ⟨rfl, rfl, rfl⟩ (respaced_moved _ more)

/-- White space behind a sign. -/
theorem Passes.behind_sign (hFront : Passes s front ⟨c :: rest, offset, top, below⟩)
    (hBack : Passes ⟨rest, offset + 1, top, below⟩ more s₁) (hSign : Mode.IsSign c kind)
    (hKind : kind = .combinator ∨ kind = .separator) (hMode : top.mode.HoldsSelectors)
    (hRest : s₁.rest = []) (hSome : ws ≠ []) (hBlank : ∀ c ∈ ws, isBlank c = true) :
    ∃ us s₂, Passes { s with rest := front.flatMap Token.text ++ (c :: (ws ++ rest)) } us s₂ ∧
      s₂.rest = [] ∧ s₂.top.mode = s₁.top.mode ∧
      Respaced (front ++ ⟨kind, [c], offset⟩ :: more) us := by
  have hHeld := hMode.holdsText
  have hMark : ∀ d ∈ (ws ++ rest).head?, isMark d = true := by
    obtain ⟨d, ws, rfl⟩ := List.exists_cons_of_ne_nil hSome
    exact isMark_head (hBlank d List.mem_cons_self) (ws ++ rest)
  have hFront' := hFront.swap (.step (step_sign hSign hMode rest offset below) .done) hHeld hMark
    fun _ _ _ => List.cons_ne_nil _ _
  obtain ⟨spaces, us, s₂, hBehind, hEnd, hTop, hSpaces, hSame⟩ :=
    hBack.preceded hRest hMode hSome hBlank
  have hStep := step_sign hSign hMode (ws ++ rest) offset below
  refine ⟨_, s₂, hFront'.trans (.step hStep hBehind), hEnd, hTop, ?_⟩
  exact (Respaced.sign hKind (.refl _) .nil hSpaces hSame).append_left front

end Scan

open Scan Token

/-- A source with white space put in: at its start, at its end, or right before or behind a
combinator or a comma that is a token of it. -/
inductive Spaced (ws source : Text) : Text → Prop where
  | first : Spaced ws source (ws ++ source)
  | last : Spaced ws source (source ++ ws)
  | before {front back : List Token} {t : Token} (h : tokenize source = .ok (front ++ t :: back))
      (hKind : t.kind = .combinator ∨ t.kind = .separator) :
      Spaced ws source (front.flatMap Token.text ++ (ws ++ (t.text ++ back.flatMap Token.text)))
  | behind {front back : List Token} {t : Token} (h : tokenize source = .ok (front ++ t :: back))
      (hKind : t.kind = .combinator ∨ t.kind = .separator) :
      Spaced ws source (front.flatMap Token.text ++ (t.text ++ (ws ++ back.flatMap Token.text)))

variable {source : Text} {front back tokens : List Token} {t : Token}

/-- A scan that gets to the end in the outermost mode is a scan of the whole source. -/
theorem tokenize_of_passes {s : Scan} (h : Passes (start source) tokens s) (hRest : s.rest = [])
    (hMode : s.top.mode = .selector) :
    tokenize source = .ok (tokens ++ [⟨.eof, [], s.offset⟩]) := by
  have hStep : s.step = none := step_eq_none_iff.mpr hRest
  refine h.run_eq ?_
  rw [run_of_step_eq_none hStep]
  exact finish_eq_ok_iff.mpr ⟨hMode, rfl⟩

/-- The tokens of a source that is scanned, in front of one of its signs and behind it. -/
theorem passes_of_sign (h : tokenize source = .ok (front ++ t :: back))
    (hKind : t.kind = .combinator ∨ t.kind = .separator) :
    ∃ more c offset top below, back = more ++ [⟨.eof, [], source.byteLength⟩] ∧
      Mode.IsSign c t.kind ∧ top.mode.HoldsSelectors ∧ t = ⟨t.kind, [c], offset⟩ ∧
      Passes (start source) front ⟨c :: more.flatMap Token.text, offset, top, below⟩ ∧
      Passes ⟨more.flatMap Token.text, offset + 1, top, below⟩ more
        ⟨[], source.byteLength, ⟨.selector, 0⟩, []⟩ := by
  obtain ⟨all, hPasses, hAll⟩ := passes_of_tokenize h
  obtain ⟨more, rfl, rfl⟩ : ∃ more, back = more ++ [⟨.eof, [], source.byteLength⟩] ∧
      all = front ++ t :: more := by
    rcases List.eq_nil_or_concat back with rfl | ⟨more, last, rfl⟩
    · obtain ⟨-, hLast⟩ := List.append_inj' hAll rfl
      obtain ⟨rfl, -⟩ := List.cons.inj hLast
      rcases hKind with hKind | hKind <;> cases hKind
    · rw [List.concat_eq_append, ← List.cons_append, ← List.append_assoc] at hAll
      obtain ⟨hFront, hLast⟩ := List.append_inj' hAll rfl
      exact ⟨more, by rw [List.concat_eq_append, hLast], hFront.symm⟩
  obtain ⟨s, hFront, hBack⟩ := hPasses.cut
  cases hBack with
  | @step _ next _ _ _ hStep hMore =>
      obtain ⟨c, text, length, hText, hFound, hToken, -, hNext, -⟩ := step_eq_some_ok hStep
      obtain ⟨hMode, rfl, hSign⟩ := Mode.isSign_of_recognize? hFound hKind
      obtain ⟨rest, offset, top, below⟩ := s
      obtain rfl : rest = c :: text := hText
      rw [step_sign hSign hMode] at hStep
      obtain ⟨-, rfl⟩ := Prod.mk.inj (Except.ok.inj (Option.some.inj hStep))
      obtain rfl : text = more.flatMap Token.text := hMore.text_eq rfl
      exact ⟨more, c, offset, top, below, rfl, hSign, hMode, hToken, hFront, hMore⟩

/-- Where there are no tokens at all there is no white space to put in. -/
theorem Spaced.eq_of_nil {source' : Text} (h : Spaced [] source source') : source' = source := by
  cases h with
  | first => rfl
  | last => exact List.append_nil source
  | before h _ | behind h _ =>
      obtain ⟨hText, -⟩ := cutInto_of_tokenize h
      rw [← hText]
      simp

/-- With white space put in, a source has tokens like those that it had, with more white space among
them: at their ends or around the sign. -/
theorem tokenize_spaced {source' : Text} (h : tokenize source = .ok tokens)
    (hBlank : ∀ c ∈ ws, isBlank c = true) (hSpaced : Spaced ws source source') :
    ∃ ts offset before us after offset', tokens = ts ++ [⟨.eof, [], offset⟩] ∧
      tokenize source' = .ok (before ++ us ++ after ++ [⟨.eof, [], offset'⟩]) ∧
      Spaces before ∧ Respaced ts us ∧ Spaces after := by
  obtain ⟨ts, hPasses, rfl⟩ := passes_of_tokenize h
  by_cases hSome : ws = []
  · subst hSome
    rw [hSpaced.eq_of_nil]
    exact ⟨ts, _, [], ts, [], _, rfl, by simpa using h, .nil, .refl ts, .nil⟩
  cases hSpaced with
  | first =>
      obtain ⟨spaces, us, s, hPasses', hRest, hMode, hSpaces, hSame⟩ :=
        hPasses.preceded rfl (Or.inl rfl) hSome hBlank
      refine ⟨ts, _, spaces, us, [], s.offset, rfl, ?_, hSpaces, hSame, .nil⟩
      rw [List.append_nil]
      exact tokenize_of_passes hPasses' hRest hMode
  | last =>
      obtain ⟨us, hPasses', hPadded⟩ := hPasses.append_blanks rfl (Or.inl rfl) hBlank
      obtain ⟨vs, spaces, rfl, hSame, hSpaces⟩ := hPadded.respaced
      have hTokens := tokenize_of_passes hPasses' rfl rfl
      exact ⟨ts, _, [], vs, spaces, _, rfl, hTokens, .nil, hSame, hSpaces⟩
  | before hTokens hKind =>
      obtain ⟨more, c, offset, top, below, rfl, hSign, hMode, hToken, hFront, hBack⟩ :=
        passes_of_sign hTokens hKind
      obtain ⟨us, s, hPasses', hRest, hEnd, hSame⟩ :=
        hFront.before_sign hBack hSign hKind hMode hBlank
      have hTokens' := tokenize_of_passes hPasses' hRest hEnd
      rw [← hToken] at hSame
      rw [← Except.ok.inj (hTokens.symm.trans h)]
      refine ⟨_, source.byteLength, [], us, [], s.offset, by simp, ?_, .nil, hSame, .nil⟩
      rw [hToken]
      simpa using hTokens'
  | behind hTokens hKind =>
      obtain ⟨more, c, offset, top, below, rfl, hSign, hMode, hToken, hFront, hBack⟩ :=
        passes_of_sign hTokens hKind
      obtain ⟨us, s, hPasses', hRest, hEnd, hSame⟩ :=
        hFront.behind_sign hBack hSign hKind hMode rfl hSome hBlank
      have hTokens' := tokenize_of_passes hPasses' hRest hEnd
      rw [← hToken] at hSame
      rw [← Except.ok.inj (hTokens.symm.trans h)]
      refine ⟨_, source.byteLength, [], us, [], s.offset, by simp, ?_, .nil, hSame, .nil⟩
      rw [hToken]
      simpa using hTokens'

end SelectorXPath
