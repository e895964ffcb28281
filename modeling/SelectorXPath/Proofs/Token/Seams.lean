import SelectorXPath.Proofs.Token.Lossless

/-! A scan does not look ahead. Where it has passed over some tokens and stands outside of strings
and comments, other text can be put behind, and it passes over the same tokens. The text may begin
with any mark of its own; white space is only kept apart from the last token if there is another one
in between. -/

namespace SelectorXPath

open SelectorXPath.Text

namespace Mode

open Token

variable {mode : Mode} {t : Text} {kind : Kind}

/-- An escape takes the character behind the backslash, so no name is a backslash alone. -/
theorem nameLength_backslash_ne_one (t : Text) : nameLength ('\\' :: t) ≠ 1 := by
  have hOne := escapeLength_ne_one ('\\' :: t)
  have hChar : nameCharLength ('\\' :: t) = escapeLength ('\\' :: t) := rfl
  cases hLength : nameCharLength ('\\' :: t) with
  | zero =>
      rw [nameLength_of_nameCharLength hLength]
      exact Nat.zero_ne_one
  | succ n =>
      rw [nameLength_eq_add hLength]
      omega

/-- Only a comment has a backslash alone for a token. -/
theorem eq_comment_of_backslash (h : mode.recognize? ('\\' :: t) = some (kind, 1)) :
    mode = .comment := by
  have hForm := form_of_recognize? h
  generalize hText : '\\' :: t = text at hForm
  generalize hOne : 1 = n at hForm
  cases hForm with
  | comment hMode => exact hMode
  | blanks hMode hSome =>
      rw [← hText] at hSome
      exact absurd rfl hSome
  | number hMode hSome =>
      rw [← hText] at hSome
      exact absurd rfl hSome
  | escaped => cases hOne
  | chars hMode hSame hChar =>
      obtain ⟨rfl, -⟩ := List.cons.inj (hText.trans hSame)
      exact absurd rfl hChar.1
  | @named kind rest hMode hNamed hSame hSome =>
      rw [← hText] at hSame
      cases kind with
      | identifier =>
          obtain rfl : '\\' :: t = rest := hSame
          exact absurd (hOne.trans (Nat.zero_add _)).symm (nameLength_backslash_ne_one t)
      | classSelector | idSelector | pseudoClass | pseudoElement =>
          obtain ⟨hChar, -⟩ := List.cons.inj hSame
          exact absurd hChar (by decide)
      | _ => cases hNamed
  | @spelled kind sign hMode hSign hPrefix =>
      rw [← hText] at hPrefix
      cases sign with
      | nil => cases hOne
      | cons c sign =>
          obtain rfl := (List.cons_prefix_cons.mp hPrefix).1
          exact absurd rfl (Kind.ne_backslash_of_mem_spellings hSign)

/-- Behind the text of a comment stands the mark that closes it, or nothing. -/
theorem drop_commentLength (t : Text) :
    t.drop (commentLength t) = [] ∨ ∃ more, t.drop (commentLength t) = '*' :: '/' :: more := by
  fun_induction commentLength t with
  | case1 => exact Or.inl rfl
  | case2 more => exact Or.inr ⟨more, rfl⟩
  | case3 c t _ ih => exact ih

end Mode

namespace Scan

variable {s s' s₁ s₂ next : Scan} {token : Token} {ts us : List Token} {q u u' : Text}

/-- Where any text is held no token opens anything. -/
theorem top_of_shift {top : Frame} {more : List Frame} (h : s.shift token = .ok (top, more))
    (hText : s.top.mode.holdsText = true) (hOpen : s.top.mode.isClosedBy token.kind ≠ true) :
    top = s.top := by
  have hOpened : s.top.mode.opened? token.kind = none := by
    cases hMode : s.top.mode with
    | string | comment => rfl
    | _ =>
        rw [hMode] at hText
        cases hText
  rw [shift, if_neg hOpen, hOpened] at h
  cases h
  rfl

/-- Tokens that are taken have text, so that some of them have some. -/
theorem Passes.text_ne_nil (h : Passes s ts s') (hSome : ts ≠ []) :
    ts.flatMap Token.text ≠ [] := by
  cases h with
  | done => exact absurd rfl hSome
  | step hStep _ =>
      rw [List.flatMap_cons]
      exact fun hNil => (takes_of_step hStep).text_ne_nil (List.append_eq_nil_iff.mp hNil).1

/-- Where strings and comments have been closed, the last character is no backslash on its own. -/
theorem Passes.text_ne_backslash (h : Passes s ts s') (hMode : s'.top.mode.holdsText = false) :
    ts.flatMap Token.text ≠ ['\\'] := by
  intro hText
  cases h with
  | done => cases hText
  | @step _ next _ token more hStep hRest =>
      have hTakes := takes_of_step hStep
      rw [List.flatMap_cons] at hText
      obtain ⟨hToken, hMore⟩ : token.text = ['\\'] ∧ more.flatMap Token.text = [] := by
        rcases List.append_eq_singleton_iff.mp hText with ⟨hNil, -⟩ | hBoth
        · exact absurd hNil hTakes.text_ne_nil
        · exact hBoth
      cases hRest with
      | step hStep' hRest' =>
          exact absurd hMore ((Passes.step hStep' hRest').text_ne_nil (List.cons_ne_nil _ _))
      | done =>
          obtain ⟨c, t, length, -, hKind, hShape, hShift, -⟩ := step_eq_some_ok hStep
          obtain ⟨hPos, hLength⟩ := Mode.length_of_recognize? hKind
          rw [hShape] at hToken
          obtain ⟨rfl, hTake⟩ := List.cons.inj hToken
          obtain rfl : length = 1 := by
            rw [List.length_cons] at hLength
            have hNone := congrArg List.length hTake
            rw [List.length_take, List.length_nil] at hNone
            omega
          have hComment := Mode.eq_comment_of_backslash hKind
          rw [hComment, Mode.recognize?, Mode.commentToken?_cons t (by simp)] at hKind
          obtain ⟨hText, -⟩ := Prod.mk.inj (Option.some.inj hKind)
          have hTop := top_of_shift hShift (by rw [hComment]; rfl)
            (by rw [hComment, ← hText]; decide)
          rw [hTop, hComment] at hMode
          cases hMode

/-- A token that stays open in a string or a comment is closed by the tokens behind it, if strings
and comments are closed in the end. -/
theorem Passes.isHeld (hStep : s.step = some (.ok (token, next))) (h : Passes next us s')
    (hMode : s'.top.mode.holdsText = false) :
    s.top.mode.isClosedBy token.kind = true ∨ s.top.mode.IsHeld (us.flatMap Token.text) := by
  by_cases hClosed : s.top.mode.isClosedBy token.kind = true
  · exact Or.inl hClosed
  obtain ⟨c, t, length, hText, hKind, -, hShift, hNext, -⟩ := step_eq_some_ok hStep
  have hSome (hHolds : s.top.mode.holdsText = true) : us ≠ [] := by
    rintro rfl
    cases h
    rw [top_of_shift hShift hHolds hClosed, hHolds] at hMode
    cases hMode
  refine Or.inr ⟨fun mark hString => ?_, fun hComment => ?_⟩
  · exact h.text_ne_nil (hSome (by rw [hString]; rfl))
  · have hTop := top_of_shift hShift (by rw [hComment]; rfl) hClosed
    -- The token is not the closing mark, so it is all of the text up to that mark.
    have hMark : ∃ more, next.rest = '*' :: '/' :: more := by
      rw [hComment, Mode.recognize?] at hKind
      by_cases hStart : c = '*' ∧ t.head? = some '/'
      · obtain ⟨rfl, hSlash⟩ := hStart
        obtain ⟨v, rfl⟩ := List.head?_eq_some_iff.mp hSlash
        rw [Mode.commentToken?_close] at hKind
        obtain ⟨hEnd, -⟩ := Prod.mk.inj (Option.some.inj hKind)
        rw [hComment, ← hEnd] at hClosed
        exact absurd rfl hClosed
      · rw [Mode.commentToken?_cons t hStart] at hKind
        obtain ⟨-, rfl⟩ := Prod.mk.inj (Option.some.inj hKind)
        rw [Nat.add_sub_cancel] at hNext
        rw [hNext]
        refine (Mode.drop_commentLength t).resolve_left fun hNil => ?_
        have hRest := h.rest_eq
        rw [hNext, hNil] at hRest
        exact h.text_ne_nil (hSome (by rw [hComment]; rfl)) (List.append_eq_nil_iff.mp hRest.symm).1
    obtain ⟨more, hMore⟩ := hMark
    cases h with
    | done => exact absurd rfl (hSome (by rw [hComment]; rfl))
    | @step _ s₁ _ close us hStep' hRest =>
        obtain ⟨d, v, n, hText', hKind', hShape, -⟩ := step_eq_some_ok hStep'
        rw [hMore] at hText'
        obtain ⟨rfl, rfl⟩ := List.cons.inj hText'
        rw [hTop, hComment, Mode.recognize?, Mode.commentToken?_close] at hKind'
        obtain ⟨-, rfl⟩ := Prod.mk.inj (Option.some.inj hKind')
        rw [List.flatMap_cons, hShape]
        exact ⟨_, rfl⟩

/-- One token, with other text put behind all of the text that the scan still passes over. -/
theorem step_swap (hStep : s.step = some (.ok (token, next))) (hRest : next.rest = q ++ u)
    (hHeld : s.top.mode.isClosedBy token.kind = true ∨ s.top.mode.IsHeld q) (hSeam : Seam q u') :
    ({ s with rest := token.text ++ (q ++ u') } : Scan).step =
      some (.ok (token, { next with rest := q ++ u' })) := by
  obtain ⟨c, t, length, hText, hKind, hToken, hShift, hNext, hOffset⟩ := step_eq_some_ok hStep
  obtain ⟨hPos, hLength⟩ := Mode.length_of_recognize? hKind
  rw [List.length_cons] at hLength
  have hInside : length - 1 ≤ t.length := by omega
  have hTail : t = t.take (length - 1) ++ q ++ u := by
    rw [List.append_assoc, ← hRest, hNext, List.take_append_drop]
  have hTake : (t.take (length - 1)).length = length - 1 := List.length_take_of_le hInside
  have hLeft : (c :: (t.take (length - 1) ++ q)).drop length = q := by
    obtain ⟨k, rfl⟩ := Nat.exists_eq_succ_of_ne_zero (Nat.ne_of_gt hPos)
    rw [List.drop_succ_cons]
    exact List.drop_left' hTake
  rw [hTail] at hKind
  obtain ⟨-, -, hSwap⟩ := Mode.recognize?_swap hKind
  rw [hLeft, List.length_cons, List.length_append, hTake] at hSwap
  have hFound := hSwap (by omega) hHeld u' hSeam
  have hShape : token.text = c :: t.take (length - 1) := by rw [hToken]
  have hTake' : (t.take (length - 1) ++ (q ++ u')).take (length - 1) = t.take (length - 1) :=
    List.take_left' hTake
  have hDrop' : (t.take (length - 1) ++ (q ++ u')).drop (length - 1) = q ++ u' :=
    List.drop_left' hTake
  rw [List.append_assoc] at hFound
  rw [hShape, List.cons_append, step]
  simp only [take, hFound, hTake', hDrop', ← hToken]
  have hShift' : ({ s with rest := c :: (t.take (length - 1) ++ (q ++ u')) } : Scan).shift token =
      .ok (next.top, next.below) := hShift
  rw [hShift', ← hOffset]

/-- The tokens that a scan passes over stay the same when the text behind is another one, or when
there is none. -/
theorem Passes.swap (h : Passes s ts s₁) (h' : Passes s₁ us s₂)
    (hMode : s₂.top.mode.holdsText = false) (hMark : ∀ c ∈ u'.head?, isMark c = true)
    (hBlank : ∀ c ∈ u'.head?, isBlank c = true → us ≠ []) :
    Passes { s with rest := ts.flatMap Token.text ++ (us.flatMap Token.text ++ u') } ts
      { s₁ with rest := us.flatMap Token.text ++ u' } := by
  induction h with
  | done => exact .done
  | @step s next s₁ token ts hStep hRest ih =>
      have hAll := hRest.trans h'
      have hSeam : Seam ((ts ++ us).flatMap Token.text) u' := by
        refine ⟨hMark, fun c hHead hWhite => hAll.text_ne_nil ?_, fun _ =>
          hAll.text_ne_backslash hMode⟩
        have hSome := hBlank c hHead hWhite
        simp [hSome]
      have hStep' := step_swap hStep hAll.rest_eq (hAll.isHeld hStep hMode) hSeam
      rw [List.flatMap_append, List.append_assoc] at hStep'
      rw [List.flatMap_cons, List.append_assoc]
      exact .step hStep' (ih h')

end Scan

end SelectorXPath
