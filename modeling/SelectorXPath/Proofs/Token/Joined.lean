import SelectorXPath.Proofs.Token.Moved
import SelectorXPath.Proofs.Token.Stack

/-! Two sources with a sign between them. Behind a source that is scanned no mode is open but the
outermost one, and no token takes up the sign. So the second source is scanned as if it stood alone,
only further to the right. -/

namespace SelectorXPath

open SelectorXPath.Text

namespace Mode

open Token

/-- A character of one byte that ends any token in front of it. Where selectors are read it is a
token on its own, which leaves the modes as they are. -/
structure IsSign (c : Char) (kind : Kind) : Prop where
  size : c.utf8Size = 1
  mark : isMark c = true
  blank : isBlank c = false
  token {mode : Mode} (hMode : mode.HoldsSelectors) (t : Text) :
    mode.recognize? (c :: t) = some (kind, 1)
  keeps {mode : Mode} (hMode : mode.HoldsSelectors) : mode.Keeps kind

variable {mode : Mode} {c : Char} {t : Text} {kind : Kind} {n : Nat}

/-- Characters of one byte that are recognised by themselves and end any token are such signs. -/
theorem isSign_of_isSignChar (hSize : c.utf8Size = 1) (hMark : isMark c = true)
    (hSign : isSignChar c = true) (hKind : kind ∈ keptKinds)
    (h : ∀ t, selectorSign? (c :: t) = some (kind, 1)) : IsSign c kind where
  size := hSize
  mark := hMark
  blank := (isSignChar_iff.mp hSign).1.1
  token hMode t := (recognize?_eq_selectorSign? hMode hSign).trans (h t)
  keeps hMode := keeps_of_mem (Or.inl hMode) hKind

/-- Combinators and commas are signs. -/
theorem isSign_of_mem_spellings {sign : Text} (hKind : kind = .combinator ∨ kind = .separator)
    (h : sign ∈ kind.spellings) : ∃ c, sign = [c] ∧ IsSign c kind := by
  rcases hKind with rfl | rfl
  · simp only [Kind.spellings, List.mem_cons, List.not_mem_nil, or_false] at h
    rcases h with rfl | rfl | rfl <;>
      exact ⟨_, rfl, isSign_of_isSignChar (by decide) (by decide) (by decide) (by decide)
        fun _ => rfl⟩
  · obtain rfl := List.mem_singleton.mp h
    exact ⟨',', rfl, isSign_of_isSignChar (by decide) (by decide) (by decide) (by decide)
      fun _ => rfl⟩

theorem isSign_separator : IsSign ',' .separator := by
  obtain ⟨c, hSign, h⟩ := isSign_of_mem_spellings (Or.inr rfl) (List.mem_singleton.mpr rfl)
  obtain ⟨rfl, -⟩ := List.cons.inj hSign
  exact h

/-- Combinators and commas are signs, and found only where selectors are read. -/
theorem isSign_of_recognize? (h : mode.recognize? (c :: t) = some (kind, n))
    (hKind : kind = .combinator ∨ kind = .separator) :
    mode.HoldsSelectors ∧ n = 1 ∧ IsSign c kind := by
  have hForm := form_of_recognize? h
  have hMode : mode.HoldsSelectors := by
    have hMem := hForm.mem_kinds
    cases mode with
    | selector => exact Or.inl rfl
    | argument => exact Or.inr rfl
    | _ => rcases hKind with rfl | rfl <;> simp [kinds] at hMem
  refine ⟨hMode, ?_⟩
  cases hForm with
  | spelled _ hSpelled hText =>
      obtain ⟨d, rfl, hSign⟩ := isSign_of_mem_spellings hKind hSpelled
      obtain rfl := (List.cons_prefix_cons.mp hText).1
      exact ⟨rfl, hSign⟩
  | named _ hNamed => rcases hKind with rfl | rfl <;> cases hNamed
  | _ => rcases hKind with hKind | hKind <;> cases hKind

end Mode

open Scan Mode

variable {source first second : Text} {tokens : List Token} {c : Char} {kind : Token.Kind}

/-- A sign is a token, whatever stands behind it. -/
theorem Scan.step_sign (hSign : IsSign c kind) {top : Frame} (hMode : top.mode.HoldsSelectors)
    (rest : Text) (offset : Nat) (below : List Frame) :
    (⟨c :: rest, offset, top, below⟩ : Scan).step =
      some (.ok (⟨kind, [c], offset⟩, ⟨rest, offset + 1, top, below⟩)) := by
  have hKeeps := hSign.keeps hMode
  have hStop : (⟨kind, [c], offset⟩ : Token).stop = offset + 1 := by
    simp [Token.stop, Token.byteLength, byteLength, hSign.size]
  rw [← hStop]
  exact step_of_text (p := [c]) rfl (List.cons_ne_nil _ _) (hSign.token hMode rest)
    (shift_of_kept hKeeps.closed hKeeps.opened)

/-- A source that is scanned leaves only the outermost mode open. -/
theorem passes_of_tokenize (h : tokenize source = .ok tokens) :
    ∃ front, Passes (start source) front ⟨[], source.byteLength, ⟨.selector, 0⟩, []⟩ ∧
      tokens = front ++ [⟨.eof, [], source.byteLength⟩] := by
  obtain ⟨front, s, hPasses, hNil, hMode, rfl⟩ := passes_of_run h
  obtain ⟨inner, hHolds⟩ := (holds_start source).passes hPasses
  obtain rfl := hHolds.eq_nil_of_mode hMode
  have hText : source = front.flatMap Token.text := hPasses.text_eq hNil
  have hOffset : s.offset = source.byteLength := by
    rw [hPasses.offset_eq, ← hText]
    exact Nat.zero_add _
  obtain ⟨hTop, hBelow⟩ := List.cons.inj hHolds.frames
  obtain ⟨rest, offset, top, below⟩ := s
  obtain rfl : rest = [] := hNil
  obtain rfl : offset = source.byteLength := hOffset
  obtain rfl : top = ⟨.selector, 0⟩ := hTop
  obtain rfl : below = [] := hBelow
  exact ⟨front, hPasses, rfl⟩

/-- With a sign between two sources, the first of which is scanned, what is made of the second is
moved behind the sign. -/
theorem tokenize_joined (h : tokenize first = .ok tokens) (hSign : IsSign c kind) (second : Text) :
    ∃ front, tokens = front ++ [⟨.eof, [], first.byteLength⟩] ∧
      tokenize (first ++ c :: second) =
        ((tokenize second).map fun more => front ++ ⟨kind, [c], first.byteLength⟩ ::
          more.map (Token.moved (first.byteLength + 1))).mapError
            (LexError.moved (first.byteLength + 1)) := by
  obtain ⟨front, hPasses, rfl⟩ := passes_of_tokenize h
  have hText : first = front.flatMap Token.text := hPasses.text_eq rfl
  have hFront : Passes (start (front.flatMap Token.text ++ c :: second)) front
      ⟨c :: second, first.byteLength, ⟨.selector, 0⟩, []⟩ := by
    refine hPasses.swap .done rfl ?_ ?_
    · rintro _ ⟨⟩
      exact hSign.mark
    · rintro _ ⟨⟩ hBlank
      rw [hSign.blank] at hBlank
      cases hBlank
  rw [← hText] at hFront
  have hOutside : (⟨.selector, 0⟩ : Frame).mode.HoldsSelectors := Or.inl rfl
  have hStep := step_sign hSign hOutside second first.byteLength []
  have hMoved : Moved (first.byteLength + 1) (fun f => f.mode = .selector) (start second)
      ⟨second, first.byteLength + 1, ⟨.selector, 0⟩, []⟩ :=
    ⟨rfl, (Nat.zero_add _).symm, .cons (Or.inr ⟨rfl, rfl⟩) .nil⟩
  refine ⟨front, rfl, ?_⟩
  rw [tokenize, (hFront.trans (.step hStep .done)).run_map]
  cases hSecond : tokenize second with
  | error e =>
      rw [hMoved.run_error hSecond]
      rfl
  | ok more =>
      rw [hMoved.run_ok hSecond]
      simp [Except.map, Except.mapError]

/-- Two sources with a sign between them are scanned one after the other. The mark of the end that
the first one had gives way to the sign. -/
theorem tokenize_joined_of_ok {front back : List Token} {offset offset' : Nat}
    (h : tokenize first = .ok (front ++ [⟨.eof, [], offset⟩]))
    (h' : tokenize second = .ok (back ++ [⟨.eof, [], offset'⟩])) (hSign : IsSign c kind) :
    tokenize (first ++ c :: second) =
      .ok (front ++ ⟨kind, [c], first.byteLength⟩ ::
        back.map (Token.moved (first.byteLength + 1)) ++
          [⟨.eof, [], offset' + (first.byteLength + 1)⟩]) := by
  obtain ⟨front', hFront, hJoined⟩ := tokenize_joined h hSign second
  obtain ⟨rfl, -⟩ := List.append_inj' hFront rfl
  rw [hJoined, h']
  simp [Except.map, Except.mapError, Token.moved]

end SelectorXPath
