import SelectorXPath.Proofs.Text.Strings
import SelectorXPath.Proofs.Token.Passage

/-! The tokens that spellings are read as, wherever they may stand: names, names behind a sign, the
inside of strings, and positions in parentheses. -/

namespace SelectorXPath

open SelectorXPath.Text

namespace Mode

/-- The two modes that selectors are read in: outside of all brackets, and in a group. -/
def HoldsSelectors (mode : Mode) : Prop :=
  mode = .selector ∨ mode = .argument

/-- The modes that names are read in. -/
def HoldsNames (mode : Mode) : Prop :=
  mode.HoldsSelectors ∨ mode = .attribute

/-- Kinds of token that leave the mode as it is, wherever names are read. -/
def keptKinds : List Token.Kind :=
  [.whitespace, .identifier, .number, .universal, .namespaceSeparator, .classSelector, .idSelector,
    .pseudoClass, .combinator, .separator, .attributeOperator]

/-- Characters that begin a token of their own neither as blanks, comments and strings do nor as
numbers do. -/
def isSignChar (c : Char) : Bool :=
  !isBlank c && !isAsciiDigit c && !(['/', '"', '\'', '-'] : List Char).contains c

variable {mode : Mode} {c : Char} {t rest : Text} {kind : Token.Kind}
  {p : List Token → Prop}

/-- Names and the signs around them neither open nor close a mode. -/
theorem keeps_of_mem (hMode : mode.HoldsNames) (hKind : kind ∈ keptKinds) : mode.Keeps kind := by
  have hAll : ∀ mode ∈ [Mode.selector, .argument, .attribute], ∀ kind ∈ keptKinds,
      mode.isClosedBy kind = false ∧ mode.opened? kind = none ∧ kind.isComment = false := by
    decide
  have hMem : mode ∈ [Mode.selector, .argument, .attribute] := by
    rcases hMode with (rfl | rfl) | rfl <;> simp
  obtain ⟨hClosed, hOpened, hVisible⟩ := hAll mode hMem kind hKind
  exact ⟨hClosed, hOpened, hVisible⟩

/-- Sign characters begin no white space, no comment, no string and no number. -/
theorem isSignChar_iff : isSignChar c = true ↔
    (isBlank c = false ∧ isAsciiDigit c = false) ∧ c ≠ '/' ∧ c ≠ '"' ∧ c ≠ '\'' ∧ c ≠ '-' := by
  simp [isSignChar]

theorem trivia?_of_not_isBlank (hBlank : isBlank c = false) (hSlash : c ≠ '/') :
    trivia? (c :: t) = none := by
  have hLength : blankLength (c :: t) = 0 := by simp [blankLength, hBlank]
  unfold trivia?
  rw [hLength]
  simp only
  split
  · rename_i hText
    exact absurd (List.cons.inj hText).1 hSlash
  · rfl

theorem trivia?_eq_none (h : isSignChar c = true) : trivia? (c :: t) = none := by
  obtain ⟨⟨hBlank, -⟩, hSlash, -⟩ := isSignChar_iff.mp h
  exact trivia?_of_not_isBlank hBlank hSlash

theorem stringStart?_of_ne (hDouble : c ≠ '"') (hSingle : c ≠ '\'') :
    stringStart? (c :: t) = none := by
  unfold stringStart?
  split
  · rename_i hText
    exact absurd (List.cons.inj hText).1 hDouble
  · rename_i hText
    exact absurd (List.cons.inj hText).1 hSingle
  · rfl

theorem stringStart?_eq_none (h : isSignChar c = true) : stringStart? (c :: t) = none := by
  obtain ⟨-, -, hDouble, hSingle, -⟩ := isSignChar_iff.mp h
  exact stringStart?_of_ne hDouble hSingle

theorem numberLength_eq_zero (h : isSignChar c = true) : numberLength (c :: t) = 0 := by
  obtain ⟨⟨-, hDigit⟩, -, -, -, hDash⟩ := isSignChar_iff.mp h
  unfold numberLength
  split
  · rename_i hText
    exact absurd (List.cons.inj hText).1 hDash
  · simp [digitsLength, hDigit]

/-- Where selectors are read, most characters begin the same token. -/
theorem recognize?_eq_selectorSign? (hMode : mode.HoldsSelectors) (h : isSignChar c = true) :
    mode.recognize? (c :: t) = selectorSign? (c :: t) := by
  rcases hMode with rfl | rfl
  · rw [recognize?, selectorToken?, trivia?_eq_none h]
    rfl
  · rw [recognize?, argumentToken?, stringStart?_eq_none h, nonempty, numberLength_eq_zero h,
      selectorToken?, trivia?_eq_none h]
    rfl

/-- Between brackets such a character is looked up among the signs at once. -/
theorem recognize?_eq_attributeSign? (h : isSignChar c = true) :
    Mode.attribute.recognize? (c :: t) = attributeSign? (c :: t) := by
  rw [recognize?, attributeToken?, trivia?_eq_none h, stringStart?_eq_none h]
  rfl

/-- Where selectors are read, a run of blanks is one token. -/
theorem recognize?_blanks (hMode : mode.HoldsSelectors) (hFirst : isBlank c = true)
    (hBlank : ∀ d ∈ t, isBlank d = true) (hRest : blankLength rest = 0) :
    mode.recognize? (c :: (t ++ rest)) = some (.whitespace, (c :: t).length) := by
  have hLength : blankLength (c :: (t ++ rest)) = t.length + 1 := by
    have hTake : rest.takeWhile isBlank = [] := List.eq_nil_of_length_eq_zero hRest
    rw [blankLength, List.takeWhile_cons_of_pos hFirst, List.takeWhile_append_of_pos hBlank, hTake,
      List.append_nil, List.length_cons]
  have hTrivia : trivia? (c :: (t ++ rest)) = some (.whitespace, (c :: t).length) := by
    unfold trivia?
    rw [hLength]
    rfl
  have hToken : selectorToken? (c :: (t ++ rest)) = some (.whitespace, (c :: t).length) := by
    rw [selectorToken?, hTrivia]
    rfl
  rcases hMode with rfl | rfl
  · exact hToken
  · obtain ⟨hString, hNumber⟩ :
        stringStart? (c :: (t ++ rest)) = none ∧ numberLength (c :: (t ++ rest)) = 0 := by
      simp only [isBlank, Bool.or_eq_true, decide_eq_true_eq] at hFirst
      rcases hFirst with (((rfl | rfl) | rfl) | rfl) | rfl <;> exact ⟨rfl, rfl⟩
    rw [recognize?, argumentToken?, hString, hNumber, hToken]
    rfl

/-- One space is white space by itself if no other blank follows. -/
theorem recognize?_blank (hMode : mode.HoldsSelectors) (hRest : blankLength rest = 0) :
    mode.recognize? (' ' :: rest) = some (.whitespace, 1) :=
  recognize?_blanks (t := []) hMode rfl (by simp) hRest

/-- The property of tokens that are one of the given kind with the given text. -/
def IsOne (kind : Token.Kind) (text : Text) (ts : List Token) : Prop :=
  ∃ t, ts = [t] ∧ t.kind = kind ∧ t.text = text

/-- The spelling of a name is one identifier, unless a name goes on behind it. -/
theorem reads_name {name : Text} (hMode : mode.HoldsNames) (hName : name ≠ [])
    (hRest : nameLength rest = 0) :
    mode.Reads (nameSpelling name) rest (IsOne .identifier (nameSpelling name)) := by
  have hLength := identifierLength_nameSpelling hName hRest
  obtain ⟨t, hText⟩ : ∃ t, nameSpelling name = '\\' :: t := by
    obtain ⟨c, name, rfl⟩ := List.exists_cons_of_ne_nil hName
    obtain ⟨t, h⟩ := escaped_eq_cons c
    exact ⟨t ++ nameSpelling name, by rw [nameSpelling, List.flatMap_cons, h]; rfl⟩
  rw [hText, List.cons_append] at hLength
  rw [hText]
  refine Reads.token (keeps_of_mem hMode (by simp [keptKinds])) ?_
    fun offset => ⟨_, rfl, rfl, rfl⟩
  rcases hMode with hMode | rfl
  · rw [recognize?_eq_selectorSign? hMode (by decide)]
    simp [selectorSign?, nonempty, withLead, hLength]
  · rw [recognize?_eq_attributeSign? (by decide)]
    simp [attributeSign?, nonempty, withLead, hLength]

/-- A bar in front of an equals sign would be an operator. -/
theorem reads_bar (hMode : mode.HoldsNames) (hRest : rest.head? ≠ some '=') :
    mode.Reads ['|'] rest (IsOne .namespaceSeparator ['|']) := by
  refine Reads.token (keeps_of_mem hMode (by simp [keptKinds])) ?_
    fun offset => ⟨_, rfl, rfl, rfl⟩
  rcases hMode with hMode | rfl
  · rw [recognize?_eq_selectorSign? hMode (by decide)]
    rfl
  · rw [recognize?_eq_attributeSign? (by decide)]
    unfold attributeSign?
    split <;> simp_all

/-- An asterisk in front of an equals sign would be an operator too, but only between brackets. -/
theorem reads_universal (hMode : mode.HoldsNames)
    (hRest : mode = .attribute → rest.head? ≠ some '=') :
    mode.Reads ['*'] rest (IsOne .universal ['*']) := by
  refine Reads.token (keeps_of_mem hMode (by simp [keptKinds])) ?_
    fun offset => ⟨_, rfl, rfl, rfl⟩
  rcases hMode with hMode | rfl
  · rw [recognize?_eq_selectorSign? hMode (by decide)]
    rfl
  · rw [recognize?_eq_attributeSign? (by decide)]
    have := hRest rfl
    unfold attributeSign?
    split <;> simp_all

/-- A sign and a name. -/
theorem reads_signedName {sign : Char} {name : Text} (hMode : mode.HoldsSelectors)
    (hSign : sign = '.' ∧ kind = .classSelector ∨ sign = '#' ∧ kind = .idSelector)
    (hName : name ≠ []) (hRest : nameLength rest = 0) :
    mode.Reads (sign :: nameSpelling name) rest (IsOne kind (sign :: nameSpelling name)) := by
  have hIdentifier := identifierLength_nameSpelling hName hRest
  have hLength : nameLength (nameSpelling name ++ rest) = (nameSpelling name).length := by
    rw [nameLength_nameSpelling, hRest, Nat.add_zero]
  have hSome : (nameSpelling name).length ≠ 0 := by
    obtain ⟨c, name, rfl⟩ := List.exists_cons_of_ne_nil hName
    have := length_escaped_pos c
    rw [nameSpelling, List.flatMap_cons, List.length_append]
    omega
  rcases hSign with ⟨rfl, rfl⟩ | ⟨rfl, rfl⟩
  · refine Reads.token (keeps_of_mem (Or.inl hMode) (by simp [keptKinds])) ?_
      fun offset => ⟨_, rfl, rfl, rfl⟩
    rw [recognize?_eq_selectorSign? hMode (by decide)]
    simp only [selectorSign?, withLead, hIdentifier, if_neg hSome, List.length_cons]
    rw [Nat.add_comm]
  · refine Reads.token (keeps_of_mem (Or.inl hMode) (by simp [keptKinds])) ?_
      fun offset => ⟨_, rfl, rfl, rfl⟩
    rw [recognize?_eq_selectorSign? hMode (by decide)]
    simp only [selectorSign?, withLead, hLength, if_neg hSome, List.length_cons]
    rw [Nat.add_comm]

/-- A colon and a word of the grammar. -/
theorem recognize?_pseudoClass {word : Text} (hMode : mode.HoldsSelectors)
    (hWord : isKeyword word = true) (hRest : nameLength rest = 0) :
    mode.recognize? (':' :: (word ++ rest)) = some (.pseudoClass, (':' :: word).length) := by
  obtain ⟨c, t, rfl, ⟨hFirst, hMore⟩, -⟩ := isKeyword_iff.mp hWord
  have hLength := identifierLength_word hFirst hMore hRest
  have hColon : c ≠ ':' := by
    rintro rfl
    cases hFirst
  rw [recognize?_eq_selectorSign? hMode (by decide)]
  unfold selectorSign?
  split
  · rename_i hText
    simp at hText
    exact absurd hText.1 hColon
  · rename_i hText
    obtain ⟨-, rfl⟩ := List.cons.inj hText
    rw [List.cons_append, hLength]
    simp [withLead, Nat.add_comm]
  all_goals simp_all

/-- A colon and a word are one token. -/
theorem reads_pseudoClass {word : Text} (hMode : mode.HoldsSelectors)
    (hWord : isKeyword word = true) (hRest : nameLength rest = 0) :
    mode.Reads (':' :: word) rest (IsOne .pseudoClass (':' :: word)) :=
  Reads.token (keeps_of_mem (Or.inl hMode) (by simp [keptKinds]))
    (recognize?_pseudoClass hMode hWord hRest) fun offset => ⟨_, rfl, rfl, rfl⟩

theorem keeps_stringChars (mark : QuoteMark) : (Mode.string mark).Keeps .stringChars := by
  cases mark <;> exact ⟨rfl, rfl, rfl⟩

theorem keeps_escapedChar (mark : QuoteMark) : (Mode.string mark).Keeps .escapedChar := by
  cases mark <;> exact ⟨rfl, rfl, rfl⟩

/-- Characters up to the next backslash or mark are one token. -/
theorem reads_run {mark : QuoteMark} {run : Text} (hFirst : mark.isPlain c = true)
    (hRun : ∀ d ∈ run, mark.isPlain d = true) (hRest : ∀ d ∈ rest.head?, mark.isPlain d = false) :
    (Mode.string mark).Reads (c :: run) rest (IsOne .stringChars (c :: run)) := by
  refine Reads.token (keeps_stringChars mark) ?_ fun offset => ⟨_, rfl, rfl, rfl⟩
  obtain ⟨hSlash, hMark⟩ := QuoteMark.isPlain_iff.mp hFirst
  have hSame : (fun d => decide (d ≠ '\\' ∧ d ≠ mark.char)) = mark.isPlain := rfl
  simp only [recognize?, stringToken?, hSame, takeWhile_run hRun hRest]
  rw [if_neg hMark, if_neg hSlash, List.length_cons, Nat.add_comm]

/-- A backslash and the character that it protects are one token. -/
theorem reads_pair {mark : QuoteMark} (h : c = mark.char ∨ c = '\\') :
    (Mode.string mark).Reads ['\\', c] rest (IsOne .escapedChar ['\\', c]) := by
  refine Reads.token (keeps_escapedChar mark) ?_ fun offset => ⟨_, rfl, rfl, rfl⟩
  simp [recognize?, stringToken?, mark.char_ne_backslash.symm, h]

/-- The property of tokens whose joined text is the given one. -/
def Joins (text : Text) (ts : List Token) : Prop :=
  ts.flatMap Token.text = text

/-- Texts that are joined from tokens side by side are joined from all of them. -/
theorem Joins.append {text text' : Text} {ts us : List Token} (h : Joins text ts)
    (h' : Joins text' us) : Joins (text ++ text') (ts ++ us) := by
  rw [Joins, List.flatMap_append, h, h']

/-- In parentheses, digits are one number. -/
theorem recognize?_digits {run : Text} (hFirst : isAsciiDigit c = true)
    (hRun : ∀ d ∈ run, isAsciiDigit d = true) (hRest : ∀ d ∈ rest.head?, isAsciiDigit d = false) :
    Mode.argument.recognize? (c :: run ++ rest) = some (.number, (c :: run).length) := by
  have hChars : c ≠ '-' ∧ c ≠ '"' ∧ c ≠ '\'' := by
    refine ⟨?_, ?_, ?_⟩ <;> rintro rfl <;> cases hFirst
  have hLength : digitsLength (c :: run ++ rest) = (c :: run).length := by
    rw [digitsLength, takeWhile_run (List.forall_mem_cons.mpr ⟨hFirst, hRun⟩) hRest]
  have hNumber : numberLength (c :: run ++ rest) = (c :: run).length := by
    unfold numberLength
    split
    · rename_i hText
      exact absurd (List.cons.inj hText).1 hChars.1
    · exact hLength
  have hString : stringStart? (c :: run ++ rest) = none :=
    stringStart?_of_ne hChars.2.1 hChars.2.2
  rw [recognize?, argumentToken?, hString, hNumber]
  simp [nonempty, withLead]

/-- Behind a minus sign a number is looked for first, and then an identifier. -/
theorem recognize?_dash (t : Text) : Mode.argument.recognize? ('-' :: t) =
    (nonempty .number (numberLength ('-' :: t)) <|>
      nonempty .identifier (identifierLength ('-' :: t))) :=
  rfl

/-- A minus sign and digits are a number as well. -/
theorem recognize?_negative {run : Text} (hFirst : isAsciiDigit c = true)
    (hRun : ∀ d ∈ run, isAsciiDigit d = true) (hRest : ∀ d ∈ rest.head?, isAsciiDigit d = false) :
    Mode.argument.recognize? ('-' :: c :: run ++ rest) =
      some (.number, ('-' :: c :: run).length) := by
  have hDigits : digitsLength (c :: run ++ rest) = run.length + 1 := by
    rw [digitsLength, takeWhile_run (List.forall_mem_cons.mpr ⟨hFirst, hRun⟩) hRest,
      List.length_cons]
  have hNumber : numberLength ('-' :: (c :: run ++ rest)) = run.length + 2 := by
    rw [numberLength, hDigits]
  rw [List.cons_append, recognize?_dash, hNumber]
  simp [nonempty, withLead]

theorem keeps_number : Mode.argument.Keeps .number :=
  ⟨rfl, rfl, rfl⟩

section

variable (n : Nat) (hRest : ∀ c ∈ rest.head?, isAsciiDigit c = false)

include hRest

/-- Digits are one number, with any text behind that does not begin with a digit. -/
theorem reads_digits :
    Mode.argument.Reads (Nat.toDigits 10 n) rest (Joins (Nat.toDigits 10 n)) := by
  obtain ⟨c, run, hDigits, hFirst, hRun⟩ := AnPlusB.exists_digits n
  rw [hDigits]
  exact Reads.token keeps_number (recognize?_digits hFirst hRun hRest) fun offset => by
    simp [Joins]

/-- The sign in front of them belongs to the number. -/
theorem reads_negative :
    Mode.argument.Reads ('-' :: Nat.toDigits 10 n) rest (Joins ('-' :: Nat.toDigits 10 n)) := by
  obtain ⟨c, run, hDigits, hFirst, hRun⟩ := AnPlusB.exists_digits n
  rw [hDigits]
  exact Reads.token keeps_number (recognize?_negative hFirst hRun hRest) fun offset => by
    simp [Joins]

end

/-- A number of positions is one token, with its sign or without. -/
theorem reads_decimal (n : Int) (hRest : ∀ c ∈ rest.head?, isAsciiDigit c = false) :
    Mode.argument.Reads (AnPlusB.decimal n) rest (Joins (AnPlusB.decimal n)) := by
  unfold AnPlusB.decimal
  split
  · exact reads_negative n.natAbs hRest
  · exact reads_digits n.natAbs hRest

/-- A plus sign is a token by itself, and the digits behind it are another one. Both are joined
again by the grammar. -/
theorem reads_signedDecimal (n : Int) (hRest : ∀ c ∈ rest.head?, isAsciiDigit c = false) :
    Mode.argument.Reads (AnPlusB.signedDecimal n) rest (Joins (AnPlusB.signedDecimal n)) := by
  unfold AnPlusB.signedDecimal
  split
  · exact reads_negative n.natAbs hRest
  · have hKeeps : Mode.argument.Keeps .combinator :=
      keeps_of_mem (Or.inl (Or.inr rfl)) (by simp [keptKinds])
    have hPlus : Mode.argument.Reads ['+'] (Nat.toDigits 10 n.natAbs ++ rest) (Joins ['+']) := by
      refine Reads.token hKeeps ?_ fun offset => by simp [Joins]
      rw [recognize?_eq_selectorSign? (Or.inr rfl) (by decide)]
      rfl
    exact hPlus.append (reads_digits n.natAbs hRest) fun ts us => Joins.append

/-- The spelling of positions is read in parentheses. -/
theorem reads_positions (positions : AnPlusB) :
    Mode.argument.Reads positions.spelling (')' :: rest) (Joins positions.spelling) := by
  have hName : Mode.argument.Keeps .identifier :=
    keeps_of_mem (Or.inl (Or.inr rfl)) (by simp [keptKinds])
  have hSpace : Mode.argument.Keeps .whitespace :=
    keeps_of_mem (Or.inl (Or.inr rfl)) (by simp [keptKinds])
  have hOffset : Mode.argument.Reads (AnPlusB.signedDecimal positions.b) (')' :: rest)
      (Joins (AnPlusB.signedDecimal positions.b)) :=
    reads_signedDecimal positions.b (by simp [isAsciiDigit])
  have hSecond : Mode.argument.Reads [' '] (AnPlusB.signedDecimal positions.b ++ ')' :: rest)
      (Joins [' ']) := by
    refine Reads.token hSpace (recognize?_blank (Or.inr rfl) ?_) fun offset => by simp [Joins]
    unfold AnPlusB.signedDecimal
    split <;> rfl
  have hLetter : Mode.argument.Reads ['n']
      (' ' :: (AnPlusB.signedDecimal positions.b ++ ')' :: rest)) (Joins ['n']) := by
    have hMore : ∀ d ∈ ([] : Text), isNameChar d = true := by simp
    have hLength : identifierLength
        ('n' :: ' ' :: (AnPlusB.signedDecimal positions.b ++ ')' :: rest)) = 1 :=
      identifierLength_word rfl hMore (nameLength_cons_eq_zero (by decide) (by decide))
    refine Reads.token hName ?_ fun offset => by simp [Joins]
    rw [recognize?_eq_selectorSign? (Or.inr rfl) (by decide)]
    simp [selectorSign?, nonempty, withLead, hLength]
  have hFirst : Mode.argument.Reads [' ']
      ('n' :: ' ' :: (AnPlusB.signedDecimal positions.b ++ ')' :: rest)) (Joins [' ']) :=
    Reads.token hSpace (recognize?_blank (Or.inr rfl) rfl) fun offset => by simp [Joins]
  have hStep : Mode.argument.Reads (AnPlusB.decimal positions.a)
      (' ' :: 'n' :: ' ' :: (AnPlusB.signedDecimal positions.b ++ ')' :: rest))
      (Joins (AnPlusB.decimal positions.a)) :=
    reads_decimal positions.a (by simp [isAsciiDigit])
  have hBehind : Mode.argument.Reads (' ' :: AnPlusB.signedDecimal positions.b) (')' :: rest)
      (Joins (' ' :: AnPlusB.signedDecimal positions.b)) :=
    hSecond.append hOffset fun ts us => Joins.append
  have hAround : Mode.argument.Reads ('n' :: ' ' :: AnPlusB.signedDecimal positions.b)
      (')' :: rest) (Joins ('n' :: ' ' :: AnPlusB.signedDecimal positions.b)) :=
    hLetter.append hBehind fun ts us => Joins.append
  have hRight : Mode.argument.Reads (' ' :: 'n' :: ' ' :: AnPlusB.signedDecimal positions.b)
      (')' :: rest) (Joins (' ' :: 'n' :: ' ' :: AnPlusB.signedDecimal positions.b)) :=
    hFirst.append hAround fun ts us => Joins.append
  exact hStep.append hRight fun ts us => Joins.append

end Mode

end SelectorXPath
