import SelectorXPath.Proofs.Token.Stack

/-! Tokens are as long as they can be. Behind white space there is no more of it, behind characters
of a string there is a backslash or the mark, behind the text of a comment the mark that closes it,
and behind a name nothing that a name could go on with, which is how identifiers and numbers begin.
None of these tokens opens or closes a mode, so their neighbours are recognised in the same one. -/

namespace SelectorXPath

open SelectorXPath.Text

/-- A token of the second kind may stand directly behind one of the first: it is nothing that the
first one should have gone on with. -/
structure Token.Kind.Apart (kind next : Token.Kind) : Prop where
  blank : kind = .whitespace → next ≠ .whitespace
  chars : kind = .stringChars → next ≠ .stringChars
  comment : kind = .commentText → next = .commentEnd
  name : kind.isNamed = true → next ≠ .identifier ∧ next ≠ .number

namespace Text

/-- All of the white space in one place is one token. -/
theorem blankLength_drop_blankLength (t : Text) : blankLength (t.drop (blankLength t)) = 0 := by
  induction t with
  | nil => rfl
  | cons c t ih =>
      cases hBlank : isBlank c with
      | true =>
          have hLength : blankLength (c :: t) = blankLength t + 1 := by
            simp [blankLength, hBlank]
          rw [hLength, List.drop_succ_cons, ih]
      | false =>
          have hLength : blankLength (c :: t) = 0 := by simp [blankLength, hBlank]
          rw [hLength, List.drop_zero, hLength]

/-- No name goes on behind all of its characters. -/
theorem nameLength_drop_nameLength (t : Text) : nameLength (t.drop (nameLength t)) = 0 := by
  fun_induction nameLength t with
  | case1 => exact nameLength_of_nameCharLength rfl
  | case2 c t hChar => exact nameLength_of_nameCharLength hChar
  | case3 c t n hChar ih =>
      rw [Nat.add_right_comm, List.drop_succ_cons, ← List.drop_drop]
      exact ih

/-- A number begins with a character that a name goes on with. -/
theorem nameLength_ne_zero_of_numberLength {t : Text} (h : numberLength t ≠ 0) :
    nameLength t ≠ 0 := by
  obtain ⟨d, more, hDigit, hText⟩ := head_of_numberLength h
  have hChar : nameCharLength t = 1 := by
    rcases hText with rfl | rfl
    · simp [nameCharLength, isNameChar, hDigit]
    · rfl
  rw [nameLength_eq_add hChar]
  omega

end Text

namespace Mode

open Token

variable {mode : Mode} {t : Text} {kind next : Kind} {n m : Nat}

/-- White space is all of the blanks that stand there. -/
theorem Form.eq_blankLength (h : mode.Form t .whitespace n) :
    n = blankLength t ∧ blankLength t ≠ 0 := by
  cases h with
  | blanks hMode hSome => exact ⟨rfl, hSome⟩
  | spelled hMode hSign => cases hSign
  | named hMode hNamed => cases hNamed

/-- What begins an identifier or a number could go on in a name. -/
theorem Form.nameLength_ne_zero (h : mode.Form t kind n)
    (hKind : kind = .identifier ∨ kind = .number) : nameLength t ≠ 0 := by
  cases h with
  | number hMode hSome => exact nameLength_ne_zero_of_numberLength hSome
  | named hMode hNamed hText hSome =>
      obtain rfl := hKind.resolve_right (by rintro rfl; cases hNamed)
      rw [hText]
      exact hSome
  | spelled hMode hSign => rcases hKind with rfl | rfl <;> cases hSign
  | _ => rcases hKind with hKind | hKind <;> cases hKind

/-- What ends with a name takes all of it. -/
theorem Form.nameLength_drop (h : mode.Form t kind n) (hNamed : kind.isNamed = true) :
    nameLength (t.drop n) = 0 := by
  cases h with
  | named hMode hKind hText hSome =>
      rw [hText, List.drop_length_add_append]
      exact nameLength_drop_nameLength _
  | spelled hMode hSign =>
      rw [Kind.isNamed_of_mem_spellings hSign] at hNamed
      cases hNamed
  | _ => cases hNamed

/-- Characters of a string go on up to a backslash or the mark. -/
theorem Form.ne_chars (h : mode.Form t .stringChars n) (hNext : mode.Form (t.drop n) next m) :
    next ≠ .stringChars := by
  rintro rfl
  cases h with
  | @chars mark c rest hMode hText hChar =>
      have hStop := eq_false_of_drop_takeWhile (f := fun d => d ≠ '\\' ∧ d ≠ mark.char) (t := rest)
      cases hNext with
      | @chars mark' d more hMode' hText' hChar' =>
          obtain rfl : mark = mark' := Mode.string.inj (hMode.symm.trans hMode')
          rw [hText, Nat.add_comm, List.drop_succ_cons] at hText'
          have hNot := hStop d (by rw [hText']; rfl)
          simp [hChar'] at hNot
      | spelled hMode' hSign => cases hSign
      | named hMode' hNamed => cases hNamed
  | spelled hMode hSign => cases hSign
  | named hMode hNamed => cases hNamed

/-- The text of a comment goes on up to the mark that closes it. -/
theorem eq_commentEnd_of_text (h : mode.recognize? t = some (.commentText, n))
    (hNext : mode.recognize? (t.drop n) = some (next, m)) : next = .commentEnd := by
  obtain ⟨rfl, rfl⟩ := (form_of_recognize? h).eq_comment
  rcases drop_commentLength t with hNil | ⟨more, hMore⟩
  · rw [hNil] at hNext
    cases hNext
  · rw [hMore] at hNext
    cases hNext
    rfl

/-- Two tokens that the same mode finds one behind the other. -/
theorem apart_of_recognize? (h : mode.recognize? t = some (kind, n))
    (hNext : mode.recognize? (t.drop n) = some (next, m)) : kind.Apart next := by
  have hFirst := form_of_recognize? h
  have hSecond := form_of_recognize? hNext
  refine ⟨?_, ?_, ?_, fun hName => ?_⟩
  · rintro rfl rfl
    obtain ⟨rfl, -⟩ := hFirst.eq_blankLength
    exact hSecond.eq_blankLength.2 (blankLength_drop_blankLength t)
  · rintro rfl
    exact hFirst.ne_chars hSecond
  · rintro rfl
    exact eq_commentEnd_of_text h hNext
  · have hLeft := hFirst.nameLength_drop hName
    exact ⟨fun hStart => hSecond.nameLength_ne_zero (Or.inl hStart) hLeft,
      fun hStart => hSecond.nameLength_ne_zero (Or.inr hStart) hLeft⟩

end Mode

/-- The kinds of token that say something about the next one. -/
def Token.Kind.isRun : Token.Kind → Bool
  | .whitespace | .stringChars | .commentText => true
  | kind => kind.isNamed

theorem Token.Kind.isRun_of_isNamed {kind : Token.Kind} (h : kind.isNamed = true) :
    kind.isRun = true := by
  cases kind <;> first | rfl | cases h

/-- Kinds that do not go on as long as they can say nothing about what follows them. -/
theorem Token.Kind.apart_of_not_isRun {kind : Token.Kind} (h : kind.isRun = false)
    (next : Token.Kind) : kind.Apart next := by
  refine ⟨?_, ?_, ?_, fun hName => ?_⟩
  · rintro rfl
    cases h
  · rintro rfl
    cases h
  · rintro rfl
    cases h
  · rw [isRun_of_isNamed hName] at h
    cases h

/-- Kinds that go on as long as they can leave the modes as they are. -/
theorem Token.Kind.keeps_of_isRun {kind : Token.Kind} (h : kind.isRun = true) (mode : Mode) :
    mode.isClosedBy kind = false ∧ mode.opened? kind = none := by
  cases kind with
  | whitespace | stringChars | commentText | identifier | classSelector | idSelector | pseudoClass
  | pseudoElement =>
      cases mode with
      | string mark => cases mark <;> exact ⟨rfl, rfl⟩
      | _ => exact ⟨rfl, rfl⟩
  | _ => cases h

namespace Scan

variable {s next last : Scan} {t u : Token} {ts : List Token}

/-- A token that goes on as long as it can leaves the mode as it is, so that its neighbour is found
by the same reader. -/
theorem top_of_isRun (hStep : s.step = some (.ok (t, next))) (hRun : t.kind.isRun = true) :
    next.top = s.top := by
  obtain ⟨c, text, length, -, -, -, hShift, -⟩ := step_eq_some_ok hStep
  obtain ⟨hClosed, hOpened⟩ := Token.Kind.keeps_of_isRun hRun s.top.mode
  rw [shift, hClosed, hOpened] at hShift
  obtain ⟨hTop, -⟩ := Prod.mk.inj (Except.ok.inj hShift)
  exact hTop.symm

/-- Two steps of a scan, one behind the other. -/
theorem apart_of_step (hStep : s.step = some (.ok (t, next)))
    (hNext : next.step = some (.ok (u, last))) : t.kind.Apart u.kind := by
  cases hRun : t.kind.isRun with
  | false => exact Token.Kind.apart_of_not_isRun hRun u.kind
  | true =>
      have hTop := top_of_isRun hStep hRun
      obtain ⟨c, text, length, -, hKind, -, -, hRest, -⟩ := step_eq_some_ok hStep
      obtain ⟨d, more, length', hMore, hKind', -⟩ := step_eq_some_ok hNext
      obtain ⟨c', text', hSame, -, hDrop⟩ := Mode.recognize?_take hKind
      obtain ⟨rfl, rfl⟩ := List.cons.inj hSame
      rw [hTop, ← hMore, hRest, ← hDrop] at hKind'
      exact Mode.apart_of_recognize? hKind hKind'

/-- All the tokens of a scan. -/
theorem Passes.isChain (h : Passes s ts last) : ts.IsChain fun t u => t.kind.Apart u.kind := by
  induction h with
  | done => exact List.isChain_nil
  | step hStep hRest ih =>
      cases hRest with
      | done => exact List.isChain_singleton _
      | step hNext hMore => exact List.isChain_cons_cons.mpr ⟨apart_of_step hStep hNext, ih⟩

/-- Outside of all brackets the last token is no text of a comment, since that would still be open.
-/
theorem Passes.getLast_ne_commentText (h : Passes s ts last) (hMode : last.top.mode = .selector) :
    ∀ t ∈ ts.getLast?, t.kind ≠ .commentText := by
  intro t hLast hKind
  obtain ⟨front, rfl⟩ := List.getLast?_eq_some_iff.mp hLast
  obtain ⟨middle, -, hBack⟩ := h.cut
  cases hBack with
  | step hStep hDone =>
      cases hDone
      have hTop := top_of_isRun hStep (by rw [hKind]; rfl)
      obtain ⟨c, text, length, -, hFound, -⟩ := step_eq_some_ok hStep
      rw [hKind] at hFound
      have hComment := (Mode.form_of_recognize? hFound).eq_comment.1
      rw [hTop, hComment] at hMode
      cases hMode

end Scan

/-- Names of which the second could have gone on with the first do not touch, if no two neighbours
do. -/
theorem stop_lt_of_isChain {offset : Nat} {ts : List Token} (h : Adjacent offset ts)
    (hText : ∀ t ∈ ts, t.text ≠ []) (hChain : ts.IsChain fun t u => t.kind.Apart u.kind) :
    ts.Pairwise fun t u => t.kind.isNamed = true →
      u.kind = .identifier ∨ u.kind = .number → t.stop < u.offset := by
  induction ts generalizing offset with
  | nil => exact List.Pairwise.nil
  | cons t ts ih =>
      obtain ⟨-, hRest⟩ := h
      have hText' := (List.forall_mem_cons.mp hText).2
      refine List.Pairwise.cons (fun u hu hName hStart => ?_) (ih hRest hText' hChain.tail)
      cases ts with
      | nil => cases hu
      | cons v ts =>
          rcases List.mem_cons.mp hu with rfl | hBehind
          · obtain ⟨hIdentifier, hNumber⟩ := (List.isChain_cons_cons.mp hChain).1.name hName
            exact absurd hStart (not_or.mpr ⟨hIdentifier, hNumber⟩)
          · have hBetween := Token.offset_lt_stop (hText' v List.mem_cons_self)
            have hBefore := (List.pairwise_cons.mp (pairwise_of_adjacent hRest)).1 u hBehind
            rw [hRest.1] at hBetween
            exact Nat.lt_of_lt_of_le hBetween hBefore

/-- No token of a source could have gone on with the one behind it, and a name, or what ends with
one, touches no identifier and no number further on. -/
theorem tokenize_maximal {source : Text} {tokens : List Token} (h : tokenize source = .ok tokens) :
    (tokens.IsChain fun t u => t.kind.Apart u.kind) ∧
      tokens.Pairwise fun t u => t.kind.isNamed = true →
        u.kind = .identifier ∨ u.kind = .number → t.stop < u.offset := by
  obtain ⟨front, s, hPasses, -, hMode, rfl⟩ := Scan.passes_of_run h
  have hChain := hPasses.isChain
  constructor
  · refine hChain.append (List.isChain_singleton _) fun t hLast u hEnd => ?_
    obtain rfl : ⟨.eof, [], s.offset⟩ = u := by simpa using hEnd
    refine ⟨nofun, nofun, fun hText => ?_, fun _ => ⟨nofun, nofun⟩⟩
    exact absurd hText (hPasses.getLast_ne_commentText hMode t hLast)
  · refine List.pairwise_append.mpr
      ⟨?_, List.pairwise_singleton _ _, fun _ _ u hEnd _ hStart => ?_⟩
    · exact stop_lt_of_isChain hPasses.adjacent hPasses.text_ne_nil_of_mem hChain
    · obtain rfl := List.mem_singleton.mp hEnd
      rcases hStart with hStart | hStart <;> cases hStart

/-- Two names with nothing but a comment between them, a name that ends with an escape in front of
white space, and in a string characters around an escape. -/
theorem tokenize_maximal_of_comment :
    (tokenize "a/* */b\\2a  :not([c='d\\\\d'])".toList).isOk = true ∧
      ∃ tokens, tokenize "a/* */b\\2a  :not([c='d\\\\d'])".toList = .ok tokens ∧
        (tokens.IsChain fun t u => t.kind.Apart u.kind) ∧
        tokens.Pairwise fun t u => t.kind.isNamed = true →
          u.kind = .identifier ∨ u.kind = .number → t.stop < u.offset := by
  have hOk : (tokenize "a/* */b\\2a  :not([c='d\\\\d'])".toList).isOk = true := by decide +kernel
  obtain ⟨tokens, hTokens⟩ := exists_ok_of_isOk hOk
  exact ⟨hOk, tokens, hTokens, tokenize_maximal hTokens⟩

end SelectorXPath
