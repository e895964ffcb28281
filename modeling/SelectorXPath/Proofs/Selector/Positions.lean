import SelectorXPath.Proofs.Selector.Acceptance
import SelectorXPath.Proofs.Selector.Pieces
import SelectorXPath.Proofs.Token.Arguments

/-! Positions in the parentheses of a pseudo-class. They are read as they are by themselves, unless
a minus sign stands alone between blanks. The scan has no token for it there, though positions may
be written with space anywhere. -/

namespace SelectorXPath

open SelectorXPath.Text SelectorXPath.Grammar

namespace Parser

variable {t start stop : Token} {us : List Token} {counting : Counting}

/-- Positions between parentheses are one part. -/
theorem part_nth (s : Setting) (groups : GroupParser)
    (hEnclosed : Encloses t start stop (.nth counting))
    (hKinds : ∀ u ∈ us, u.kind.isPositional = true) :
    part s groups (t :: start :: (us ++ [stop])) =
      match AnPlusB.read? (us.flatMap Token.text) with
      | some n => .ok (some (.nth counting n)) []
      | none => .error ⟨start.stop, .positions⟩ 0 [stop] := by
  have hText := positionsText_of_positional (s := s) hKinds hEnclosed.stop []
  obtain ⟨hPart, hName⟩ := part_of_encloses s groups hEnclosed (us ++ [stop])
  rw [hPart, functional, hName]
  simp only [positions, hText, Outcome.andThen]
  cases AnPlusB.read? (us.flatMap Token.text) <;> rfl

/-- They are all of the list, if nothing else is there. -/
theorem list_nth (s : Setting) (groups : GroupParser)
    (hEnclosed : Encloses t start stop (.nth counting))
    (hKinds : ∀ u ∈ us, u.kind.isPositional = true) :
    list s groups .eof (t :: start :: (us ++ [stop])) =
      match AnPlusB.read? (us.flatMap Token.text) with
      | some n => .ok [.single ⟨t.offset, [.nth counting n]⟩] []
      | none => .error ⟨start.stop, .positions⟩ 0 [stop] := by
  have hPart := part_nth s groups hEnclosed hKinds
  have hBlank : dropBlank (t :: start :: (us ++ [stop])) = t :: start :: (us ++ [stop]) := by
    simp [dropBlank, hEnclosed.kind]
  have hName : qualifiedName s .elementName (t :: start :: (us ++ [stop])) =
      .ok none (t :: start :: (us ++ [stop])) := by
    simp [qualifiedName, name?, hEnclosed.kind]
  cases hRead : AnPlusB.read? (us.flatMap Token.text) with
  | none =>
      have hParts : parts s groups (t :: start :: (us ++ [stop])) =
          .error ⟨start.stop, .positions⟩ 0 [stop] := by rw [parts, hPart, hRead]
      have hAlternative : alternative s groups (t :: start :: (us ++ [stop])) =
          .error ⟨start.stop, .positions⟩ 0 [stop] := by
        rw [alternative, hBlank, complex, compound, hName]
        simp only [Outcome.andThen, hParts]
      rw [list, hAlternative]
  | some n =>
      have hParts : parts s groups (t :: start :: (us ++ [stop])) = .ok [.nth counting n] [] := by
        rw [parts, hPart, hRead]
        simp [parts, part, Outcome.map]
      have hChain (left : Complex) : chain s groups left [] = .ok left [] := by
        rw [chain]
        rfl
      have hAlternative : alternative s groups (t :: start :: (us ++ [stop])) =
          .ok (.single ⟨t.offset, [.nth counting n]⟩) [] := by
        rw [alternative, hBlank, complex, compound, hName]
        simp only [Outcome.andThen, hParts, hChain]
        rfl
      rw [list, hAlternative]
      rfl

end Parser

section

variable {inside : Text} {p : List Token → Prop}

/-- The name of a functional pseudo-class at the start of a source. -/
theorem step_functional (functional : FunctionalClass) (rest : Text) :
    ∃ offset, (Scan.start (':' :: (functional.name ++ '(' :: rest))).step =
      some (.ok (⟨.pseudoClass, ':' :: functional.name, 0⟩,
        ⟨'(' :: rest, offset, ⟨.selector, 0⟩, []⟩)) :=
  Scan.step_of_recognize? 0 0 []
    (Mode.recognize?_pseudoClass (Or.inl rfl) (Mode.isKeyword_functionalClass functional)
      (nameLength_cons_eq_zero (by decide) (by decide))) rfl rfl

/-- A functional pseudo-class is scanned if its argument is. -/
theorem tokenize_functional (functional : FunctionalClass)
    (h : Mode.argument.Reads inside [')'] p) :
    ∃ ts start us stop offset,
      tokenize (':' :: (functional.name ++ '(' :: (inside ++ [')']))) =
        .ok (ts ++ [⟨.eof, [], offset⟩]) ∧
      Mode.uncommented ts =
        ⟨.pseudoClass, ':' :: functional.name, 0⟩ :: start :: (us ++ [stop]) ∧
      Encloses ⟨.pseudoClass, ':' :: functional.name, 0⟩ start stop functional ∧ p us := by
  obtain ⟨middle, hStep⟩ := step_functional functional (inside ++ [')'])
  obtain ⟨ts, offset, hPasses, start, us, stop, hTokens, hStart, hStop, hInside⟩ :=
    Mode.reads_parentheses (Or.inl rfl) h middle 0 []
  rw [List.append_nil] at hPasses
  have hRun : (⟨[], offset, ⟨.selector, 0⟩, []⟩ : Scan).run = .ok [⟨.eof, [], offset⟩] := by
    rw [Scan.run]
    rfl
  refine ⟨⟨.pseudoClass, ':' :: functional.name, 0⟩ :: ts, start, us, stop, offset, ?_, ?_, ?_,
    hInside⟩
  · exact (Scan.Passes.step hStep hPasses).run_eq hRun
  · rw [← hTokens]
    rfl
  · exact ⟨rfl, Mode.pseudoName_of_isKeyword (Mode.isKeyword_functionalClass functional) rfl,
      hStart, hStop⟩

/-- It is not scanned if its argument is not. -/
theorem tokenize_functional_of_stops (functional : FunctionalClass)
    (h : Mode.argument.Stops inside [')']) :
    ∃ e, tokenize (':' :: (functional.name ++ '(' :: (inside ++ [')']))) = .error e := by
  obtain ⟨middle, hStep⟩ := step_functional functional (inside ++ [')'])
  obtain ⟨offset, hOpen⟩ :=
    @Scan.step_of_opened? .selector .argument .parenthesesStart '(' (inside ++ [')'])
      middle 0 [] rfl rfl rfl
  obtain ⟨e, hRun⟩ := h offset middle [⟨.selector, 0⟩]
  exact ⟨e, (Scan.Passes.step hStep (.step hOpen .done)).run_eq_error hRun⟩

end

namespace Selector

/-- A minus sign that begins no token stands alone in a text that writes positions. -/
theorem hasLoneMinus_of_read? {front back : Text} {n : AnPlusB}
    (hChars : ∀ d ∈ front ++ '-' :: back, isArgumentChar d = true)
    (hBefore : ∀ d ∈ front.getLast?, isAsciiLetter d = false)
    (hBehind : ∀ d ∈ back.head?, isNameChar d = false)
    (h : AnPlusB.read? (front ++ '-' :: back) = some n) : HasLoneMinus (front ++ '-' :: back) := by
  obtain ⟨hLast, c, t, rfl, hFirst⟩ := AnPlusB.minus_of_read? h
  have hPlain {d : Char} (hChar : isArgumentChar d = true) (hLetter : isAsciiLetter d = false)
      (hBlank : isBlank d = false) : isSpace d = false ∧ d.toLower = d := by
    simp only [isArgumentChar, hLetter, hBlank, Bool.false_or, Bool.or_false, Bool.or_eq_true,
      decide_eq_true_eq] at hChar
    rcases hChar with (hDigit | rfl) | rfl
    · simpa [AnPlusB.isPlain] using AnPlusB.isPlain_of_isAsciiDigit hDigit
    · decide
    · decide
  refine ⟨front, c, t, rfl, ?_, fun d hd => ?_⟩
  · refine Bool.of_not_eq_false fun hBlank => ?_
    have hName := hBehind c rfl
    have hParts := hName
    simp only [isNameChar, isNameStart, Bool.or_eq_false_iff] at hParts
    obtain ⟨hSpace, hLower⟩ := hPlain (hChars c (by simp)) hParts.1.1.1.1 hBlank
    rw [hLower, hSpace, hParts.1.2] at hFirst
    obtain hFalse | hFalse | rfl := hFirst
    · cases hFalse
    · cases hFalse
    · cases hName
  · refine Bool.of_not_eq_false fun hBlank => ?_
    have hLetter := hBefore d hd
    obtain ⟨hSpace, hLower⟩ :=
      hPlain (hChars d (List.mem_append_left _ (List.mem_of_getLast? hd))) hLetter hBlank
    have hSides := hLast d hd
    rw [hLower, hSpace] at hSides
    obtain hFalse | rfl := hSides
    · cases hFalse
    · cases hLetter

/-- Letters, digits, signs and blanks in the parentheses of a pseudo-class that counts are read if
they write positions by themselves and no minus sign in them stands alone. What is read is the
positions. -/
theorem parse_nth_eq_ok_iff (counting : Counting) {t : Text}
    (hChars : ∀ c ∈ t, isArgumentChar c = true) (limit : Nat) (list : SelectorList) :
    parse (':' :: ((FunctionalClass.nth counting).name ++ '(' :: (t ++ [')']))) limit = .ok list ↔
      ∃ n, AnPlusB.read? t = some n ∧ ¬ HasLoneMinus t ∧
        list = [.single ⟨0, [.nth counting n]⟩] := by
  rcases Mode.reads_or_stops t hChars [] with ⟨hReads, hLone⟩ | ⟨hStops, front, back, rfl, hSides⟩
  · obtain ⟨ts, start, us, stop, offset, hTokens, hVisible, hEnclosed, hJoins, hKinds⟩ :=
      tokenize_functional (.nth counting) hReads
    have hSeen : (TokenReader.start limit (ts ++ [⟨.eof, [], offset⟩])).tokens =
        ⟨.pseudoClass, ':' :: (FunctionalClass.nth counting).name, 0⟩ ::
          start :: (us ++ [stop]) :=
      (TokenReader.visible_append_eof ts offset).trans hVisible
    rw [parse, hTokens]
    simp only [mapError_eq_ok_iff, TokenReader.next, TokenReader.outcome, hSeen,
      Parser.list_nth _ _ hEnclosed hKinds]
    rw [hJoins]
    cases AnPlusB.read? t with
    | none => simp
    | some n => simp [hLone, eq_comm]
  · obtain ⟨e, hError⟩ := tokenize_functional_of_stops (.nth counting) hStops
    rw [parse, hError]
    constructor
    · rintro ⟨⟩
    · rintro ⟨n, hRead, hLone, -⟩
      exact absurd (hasLoneMinus_of_read? hChars hSides.1 hSides.2 hRead) hLone

/-- A plus sign may stand alone between blanks. -/
theorem parse_nth_eq_ok_iff_of_plus :
    (∀ c ∈ "2N + 1".toList, isArgumentChar c = true) ∧
      parse ":nth-last-of-type(2N + 1)".toList 0 =
        .ok [.single ⟨0, [.nth .lastOfType ⟨2, 1⟩]⟩] := by
  have hChars : ∀ c ∈ "2N + 1".toList, isArgumentChar c = true :=
    List.all_eq_true.mp (by decide)
  have hLone : ¬ HasLoneMinus "2N + 1".toList := by
    rintro ⟨front, c, back, hText, -⟩
    have hMinus : '-' ∈ "2N + 1".toList := by
      rw [hText]
      simp
    exact absurd hMinus (by decide)
  exact ⟨hChars, (parse_nth_eq_ok_iff .lastOfType hChars 0 _).mpr
    ⟨⟨2, 1⟩, by decide, hLone, rfl⟩⟩

/-- A minus sign may not, though the positions can be read by themselves. -/
theorem not_parse_nth_of_minus :
    AnPlusB.read? "2n - 1".toList = some ⟨2, -1⟩ ∧
      tokenize ":nth-child(2n - 1)".toList = .error ⟨14, .unexpected '-'⟩ ∧
      ¬ ((∃ list, parse ":nth-child(2n - 1)".toList defaultLimit = .ok list) ↔
        ∃ n, AnPlusB.read? "2n - 1".toList = some n) := by
  have hRead : AnPlusB.read? "2n - 1".toList = some ⟨2, -1⟩ := by decide
  have hScan : tokenize ":nth-child(2n - 1)".toList = .error ⟨14, .unexpected '-'⟩ := by
    decide +kernel
  refine ⟨hRead, hScan, fun h => ?_⟩
  obtain ⟨list, hParse⟩ := h.mpr ⟨_, hRead⟩
  rw [parse, hScan] at hParse
  cases hParse

end Selector

end SelectorXPath
