import SelectorXPath.Proofs.XPath.Legible
import SelectorXPath.Proofs.XPath.Vocabulary

/-! Texts as constants of XPath. A quoted text is one string, or several put together. Its value is
the text, and where it ends can be told without a look at what stands behind it. -/

namespace SelectorXPath.XPath

/-- A string that does not hold the mark it stands between. -/
def Expr.IsLiteral : Expr → Prop
  | .literal mark content => mark.char ∉ content
  | _ => False

/-- A string, or a call that puts together at least two of them. -/
inductive Expr.IsConstant : Expr → Prop where
  | literal {e : Expr} (h : e.IsLiteral) : e.IsConstant
  | concat {arguments : List Expr} (hLength : 2 ≤ arguments.length)
      (h : ∀ e ∈ arguments, e.IsLiteral) : (Expr.call .concat arguments).IsConstant

/-- Strings of the given content, each between its mark. -/
abbrev literals (pieces : List (QuoteMark × Text)) : List Expr :=
  pieces.map fun piece => .literal piece.1 piece.2

/-- A text is quoted as one constant between a mark that it does not hold, or from at least two
pieces. -/
theorem quote_cases (t : Text) :
    (∃ mark : QuoteMark, mark.char ∉ t ∧ quote t = .literal mark t) ∨
      2 ≤ (pieces t).length ∧ quote t = .call .concat (literals (pieces t)) := by
  rw [quote]
  split
  · rename_i hSingle
    exact .inl ⟨.single, hSingle, rfl⟩
  · split
    · rename_i hDouble
      exact .inl ⟨.double, hDouble, rfl⟩
    · rename_i hSingle hDouble
      exact .inr ⟨two_le_length_pieces (Decidable.not_not.mp hSingle)
        (Decidable.not_not.mp hDouble), rfl⟩

theorem isConstant_quote (t : Text) : (quote t).IsConstant := by
  obtain ⟨mark, hMark, hQuote⟩ | ⟨hLength, hQuote⟩ := quote_cases t
  · rw [hQuote]
    exact .literal hMark
  · rw [hQuote]
    refine .concat (by rwa [List.length_map]) fun e hMem => ?_
    obtain ⟨piece, hPiece, rfl⟩ := List.mem_map.mp hMem
    exact not_mem_of_mem_pieces piece hPiece

section

variable (d : Document) (n : Node)

/-- The values of the pieces are their texts. -/
theorem valuesOf_literals (pieces : List (QuoteMark × Text)) :
    valuesOf d n (literals pieces) = pieces.map fun piece => .text piece.2 := by
  induction pieces with
  | nil => rfl
  | cons piece pieces ih => rw [literals, List.map_cons, List.map_cons, valuesOf, ih, Expr.value]

/-- The value of a quoted text is the text, at every node. -/
theorem value_quote (t : Text) : (quote t).value d n = .text t := by
  obtain ⟨mark, -, hQuote⟩ | ⟨-, hQuote⟩ := quote_cases t
  · rw [hQuote, Expr.value]
  · rw [hQuote, Expr.value, valuesOf_literals, CoreFunction.apply, List.flatMap_map]
    exact congrArg Value.text (flatMap_pieces t)

end

/-- The operands that hold together most tightly are paths, constants, calls and groups. -/
theorem primary_cases {e : Expr} {ts : List Lexeme} (h : Written (.operand primaryLevel e) ts) :
    (∃ t more, ts = t :: more ∧ t.startsPath = true) ∨
    (∃ mark content, e = .literal mark content ∧ ts = [.literal mark content]) ∨
    (∃ digits, ts = [.number digits]) ∨
    (∃ function arguments us, e = .call function arguments ∧ Written (.arguments arguments) us ∧
      ts = .function function.spelling :: .leftParenthesis :: (us ++ [.rightParenthesis])) ∨
    ∃ us, ts = .leftParenthesis :: us := by
  generalize hPhrase : Phrase.operand primaryLevel e = phrase at h
  cases h with
  | next hLevel =>
      obtain ⟨rfl, -⟩ := Phrase.operand.inj hPhrase
      exact absurd hLevel (Nat.lt_irrefl _)
  | @binary operator =>
      obtain ⟨hLevel, -⟩ := Phrase.operand.inj hPhrase
      exact absurd operator.level_lt (Nat.not_lt.mpr (Nat.le_of_eq hLevel))
  | path hPath =>
      have hRead := followed_of_written hPath [] _ [] (.noStep (by simp) (by simp))
      rw [List.append_nil] at hRead
      exact .inl (startsPath_of_parses hRead)
  | literal =>
      cases hPhrase
      exact .inr (.inl ⟨_, _, rfl, rfl⟩)
  | number => exact .inr (.inr (.inl ⟨_, rfl⟩))
  | call hArguments =>
      cases hPhrase
      exact .inr (.inr (.inr (.inl ⟨_, _, _, rfl, hArguments, rfl⟩)))
  | group => exact .inr (.inr (.inr (.inr ⟨_, rfl⟩)))
  | _ => cases hPhrase

/-- The expression begins a text, however the text goes on: the lexemes of the text are its lexemes
and those of the rest, and it is the only operand without operators that begins with them. -/
structure Expr.Begins (e : Expr) (t : Text) : Prop where
  lexemes : ∀ N rest, Opens N Bool.false (t ++ rest) e.lexemes Bool.true rest
  written : Written (.operand primaryLevel e) e.lexemes
  unique : ∀ e' ts us us', Written (.operand primaryLevel e') ts → ts ++ us' = e.lexemes ++ us →
    e' = e ∧ us' = us

/-- A constant ends at its mark, so that it can be told from whatever follows. -/
theorem begins_literal {mark : QuoteMark} {content : Text} (h : mark.char ∉ content) :
    (Expr.literal mark content).Begins (Expr.literal mark content).text where
  lexemes N rest := by
    rw [Expr.text, Expr.write, List.cons_append, List.append_assoc]
    exact opens_literal h rest
  written := .literal
  unique e' ts us us' hWritten hSame := by
    obtain ⟨t, more, rfl, hPath⟩ | ⟨mark', content', rfl, rfl⟩ | ⟨digits, rfl⟩ |
      ⟨function, arguments, vs, rfl, -, rfl⟩ | ⟨vs, rfl⟩ := primary_cases hWritten
    · obtain ⟨rfl, -⟩ := List.cons.inj hSame
      cases hPath
    · obtain ⟨hLexeme, rfl⟩ := List.cons.inj hSame
      cases hLexeme
      exact ⟨rfl, rfl⟩
    all_goals cases hSame

/-- A call without names in its arguments ends at its parenthesis. -/
theorem begins_call {function : CoreFunction} {arguments : List Expr} {types : List ValueType}
    (hTypes : typesOf? arguments = some types) (hNames : argumentNames arguments = []) :
    (Expr.call function arguments).Begins (Expr.call function arguments).text where
  lexemes N rest := by
    have hText : (Expr.call function arguments).text ++ rest =
        function.spelling ++ '(' :: writeArguments arguments (')' :: rest) := by
      rw [Expr.text, ← Expr.write_eq_append, Expr.write]
    rw [hText]
    exact (opens_function function _).append
      (opens_writeArguments arguments hTypes (by simp [hNames]))
  written := .call (arguments_written arguments hTypes)
  unique e' ts us us' hWritten hSame := by
    obtain ⟨t, more, rfl, hPath⟩ | ⟨mark, content, rfl, rfl⟩ | ⟨digits, rfl⟩ |
      ⟨function', arguments', vs, rfl, hArguments, rfl⟩ | ⟨vs, rfl⟩ := primary_cases hWritten
    · obtain ⟨rfl, -⟩ := List.cons.inj hSame
      cases hPath
    · cases hSame
    · cases hSame
    · rw [Expr.lexemes] at hSame
      simp only [List.cons_append, List.append_assoc, List.nil_append, List.cons.injEq,
        Lexeme.function.injEq, true_and] at hSame
      obtain ⟨hName, hRest⟩ := hSame
      obtain rfl := CoreFunction.spelling_injective hName
      have hRead := followed_of_written hArguments us'
      rw [hRest] at hRead
      obtain ⟨hArguments, hTail⟩ :=
        hRead.determined _ _ (followed_of_written (arguments_written arguments hTypes) us)
      cases hArguments
      cases hTail
      exact ⟨rfl, rfl⟩
    · cases hSame

theorem argumentNames_literals (pieces : List (QuoteMark × Text)) :
    argumentNames (literals pieces) = [] := by
  induction pieces with
  | nil => rfl
  | cons piece pieces ih =>
      rw [literals, List.map_cons, argumentNames, ih, List.append_nil]
      rfl

/-- A quoted text begins whatever it is put in front of. -/
theorem begins_quote (t : Text) : (quote t).Begins (quote t).text := by
  obtain ⟨mark, hMark, hQuote⟩ | ⟨-, hQuote⟩ := quote_cases t
  · rw [hQuote]
    exact begins_literal hMark
  · rw [hQuote]
    exact begins_call (typesOf?_pieces not_mem_of_mem_pieces) (argumentNames_literals _)

/-- A string is known from any text that it begins. -/
theorem literal_append_inj {mark mark' : QuoteMark} {content content' rest rest' : Text}
    (h : mark.char ∉ content) (h' : mark'.char ∉ content')
    (hSame : mark.char :: (content ++ mark.char :: rest) =
      mark'.char :: (content' ++ mark'.char :: rest')) :
    (mark, content) = (mark', content') ∧ rest = rest' := by
  have hMark : mark = mark' := by
    have hChar := (List.cons.inj hSame).1
    cases mark <;> cases mark' <;> first | rfl | exact absurd hChar (by decide)
  subst hMark
  have hInside := (List.cons.inj hSame).2
  have hFirst := congrArg (List.takeWhile (· ≠ mark.char)) hInside
  rw [takeWhile_ne_mark h, takeWhile_ne_mark h'] at hFirst
  subst hFirst
  exact ⟨rfl, (List.cons.inj (List.append_cancel_left hInside)).2⟩

/-- So are several strings, up to the parenthesis behind the last. -/
theorem literals_append_inj {list list' : List (QuoteMark × Text)} {rest rest' : Text}
    (h : ∀ piece ∈ list, piece.1.char ∉ piece.2) (h' : ∀ piece ∈ list', piece.1.char ∉ piece.2)
    (hSame : writeMoreArguments (literals list) (')' :: rest) =
      writeMoreArguments (literals list') (')' :: rest')) :
    list = list' ∧ rest = rest' := by
  induction list generalizing list' with
  | nil =>
      cases list' with
      | nil => exact ⟨rfl, (List.cons.inj hSame).2⟩
      | cons => exact absurd (List.cons.inj hSame).1 (by decide)
  | cons piece list ih =>
      cases list' with
      | nil => exact absurd (List.cons.inj hSame).1 (by decide)
      | cons piece' list' =>
          rw [List.forall_mem_cons] at h h'
          have hInside := (List.cons.inj (List.cons.inj hSame).2).2
          obtain ⟨hPiece, hMore⟩ := literal_append_inj h.1 h'.1 hInside
          obtain ⟨rfl, hRest⟩ := ih h.2 h'.2 hMore
          exact ⟨congrArg (· :: list) hPiece, hRest⟩

/-- A call with arguments begins as its spelling does, and goes on as if one argument more stood in
front, but for the comma. -/
theorem text_concat {list : List (QuoteMark × Text)} (h : 2 ≤ list.length) (rest : Text) :
    ∃ inside, (Expr.call .concat (literals list)).text ++ rest = "concat(".toList ++ inside ∧
      writeMoreArguments (literals list) (')' :: rest) = ", ".toList ++ inside := by
  obtain ⟨piece, list, rfl⟩ := List.exists_cons_of_length_pos (Nat.lt_of_lt_of_le Nat.two_pos h)
  refine ⟨writeArguments (literals (piece :: list)) (')' :: rest), ?_, rfl⟩
  rw [Expr.text, ← Expr.write_eq_append]
  rfl

/-- A text and what follows it are both known from the constant with the rest behind it. -/
theorem quote_append_inj {t t' rest rest' : Text}
    (h : (quote t).text ++ rest = (quote t').text ++ rest') : t = t' ∧ rest = rest' := by
  have hLiteral (mark : QuoteMark) (content rest : Text) :
      (Expr.literal mark content).text ++ rest = mark.char :: (content ++ mark.char :: rest) := by
    rw [Expr.text, ← Expr.write_eq_append, Expr.write]
  obtain ⟨mark, hMark, hQuote⟩ | ⟨hLength, hQuote⟩ := quote_cases t
  · obtain ⟨mark', hMark', hQuote'⟩ | ⟨hLength', hQuote'⟩ := quote_cases t'
    · rw [hQuote, hQuote', hLiteral, hLiteral] at h
      obtain ⟨hSame, hRest⟩ := literal_append_inj hMark hMark' h
      exact ⟨congrArg Prod.snd hSame, hRest⟩
    · obtain ⟨inside, hText, -⟩ := text_concat hLength' rest'
      rw [hQuote, hQuote', hLiteral, hText] at h
      cases mark <;> exact absurd (List.cons.inj h).1 (by decide)
  · obtain ⟨inside, hText, hMore⟩ := text_concat hLength rest
    obtain ⟨mark', hMark', hQuote'⟩ | ⟨hLength', hQuote'⟩ := quote_cases t'
    · rw [hQuote, hQuote', hLiteral, hText] at h
      cases mark' <;> exact absurd (List.cons.inj h).1 (by decide)
    · obtain ⟨inside', hText', hMore'⟩ := text_concat hLength' rest'
      rw [hQuote, hQuote', hText, hText'] at h
      obtain rfl := List.append_cancel_left h
      obtain ⟨hPieces, hRest⟩ := literals_append_inj not_mem_of_mem_pieces not_mem_of_mem_pieces
        (hMore.trans hMore'.symm)
      refine ⟨?_, hRest⟩
      rw [← flatMap_pieces t, hPieces, flatMap_pieces]

/-- A quoted text is one string or a call that puts together at least two, with the text as its
value. It is read so and in no other way; it ends at the same place whatever stands behind it, so
that different texts are never quoted alike, not even with more text behind them. -/
theorem quote_denotes (t : Text) :
    (quote t).IsConstant ∧ (∀ d n, (quote t).value d n = .text t) ∧
      (quote t).IsReadingOf (quote t).text ∧ (quote t).Begins (quote t).text ∧
      ∀ t' rest rest', (quote t).text ++ rest = (quote t').text ++ rest' →
        t = t' ∧ rest = rest' :=
  ⟨isConstant_quote t, fun d n => value_quote d n t, isReadingOf_text (fits_quote t),
    begins_quote t, fun _ _ _ h => quote_append_inj h⟩

/-- A text with both marks in it. No other text is quoted like it. -/
theorem quote_denotes_of_both_marks :
    (quote ['a', '\'', '"', 'b']).IsConstant ∧
      (∀ d n, (quote ['a', '\'', '"', 'b']).value d n = .text ['a', '\'', '"', 'b']) ∧
      ∀ t, (quote ['a', '\'', '"', 'b']).text = (quote t).text → ['a', '\'', '"', 'b'] = t := by
  obtain ⟨hConstant, hValue, -, -, hSame⟩ := quote_denotes ['a', '\'', '"', 'b']
  refine ⟨hConstant, hValue, fun t hText => (hSame t [] [] ?_).1⟩
  rw [hText]

end SelectorXPath.XPath
