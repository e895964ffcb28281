import SelectorXPath.Proofs.XPath.Lexemes
import SelectorXPath.Proofs.XPath.Unambiguous

/-! Expressions of a shape can be read again from what is written for them. Writing adds nothing to
the lexemes of an expression but space, and no lexeme runs into the text behind it. The one thing
that is not for the writer to say is which names there are: a bare name is read where the class of
names has it. -/

namespace SelectorXPath.XPath

open SelectorXPath.Text

/-- What may stand behind an operand as it is written: an operator, or a sign that ends a piece. -/
inductive Ends : Text → Prop where
  | nil : Ends []
  | closer {c : Char} {t : Text} (h : c ∈ [')', ']', ',', '/', '[']) : Ends (c :: t)
  | operator (operator : Operator) (t : Text) : Ends (operator.spelling ++ t)

/-- The characters that such a text begins with. -/
theorem head_of_ends {t : Text} (h : Ends t) :
    ∀ c ∈ t.head?, c ∈ [')', ']', ',', '/', '[', ' ', '=', '<', '>'] := by
  cases h with
  | nil => simp
  | closer h =>
      intro d hd
      cases hd
      simp only [List.mem_cons, List.not_mem_nil, or_false] at h ⊢
      rcases h with rfl | rfl | rfl | rfl | rfl <;> decide
  | operator operator t =>
      intro c hc
      cases operator <;> cases hc <;> decide

/-- Behind an operand neither a parenthesis nor a colon follows, which would make a function or an
axis of it. -/
theorem dropWhile_of_ends {t : Text} (h : Ends t) :
    ∀ c ∈ (t.dropWhile isXmlSpace).head?, c ≠ '(' ∧ c ≠ ':' := by
  cases h with
  | nil => simp
  | closer h =>
      simp only [List.mem_cons, List.not_mem_nil, or_false] at h
      rcases h with rfl | rfl | rfl | rfl | rfl <;> simp [isXmlSpace]
  | operator operator t =>
      intro c hc
      cases operator <;> cases hc <;> decide

section

variable {N : NameClass}

/-- What ASCII characters may do in names does not depend on the class of names. -/
theorem NameClass.start_eq_false (N : NameClass) {c : Char} (hAscii : c.toNat < 128)
    (h : (isAsciiLetter c || c = '_') = false) : N.start c = false := by
  rw [N.start_ascii c hAscii, h]

theorem NameClass.char_eq_false (N : NameClass) {c : Char} (hAscii : c.toNat < 128)
    (h : (isAsciiLetter c || c = '_' || isAsciiDigit c || c = '-' || c = '.') = false) :
    N.char c = false := by
  rw [N.char_ascii c hAscii, h]

/-- Lexemes at the start of a text, and what is behind them. `operand` says whether an operand ends
in front of the text, and `operand'` whether one ends in front of the rest. -/
def Opens (N : NameClass) (operand : Bool) (t : Text) (xs : List Lexeme) (operand' : Bool)
    (rest : Text) : Prop :=
  lex N operand t = (lex N operand' rest).map (xs ++ ·)

theorem Opens.nil {operand : Bool} {t : Text} : Opens N operand t [] operand t := by
  simp [Opens]

/-- Lexemes at the start of a text and lexemes behind them are lexemes at its start. -/
theorem Opens.append {a b c : Bool} {t u v : Text} {xs ys : List Lexeme}
    (h : Opens N a t xs b u) (hMore : Opens N b u ys c v) : Opens N a t (xs ++ ys) c v := by
  rw [Opens] at h hMore ⊢
  rw [h, hMore, Option.map_map]
  congr 1
  funext ts
  exact (List.append_assoc xs ys ts).symm

theorem Opens.cons {a b c : Bool} {t u v : Text} {x : Lexeme} {ys : List Lexeme}
    (h : Opens N a t [x] b u) (hMore : Opens N b u ys c v) : Opens N a t (x :: ys) c v :=
  h.append hMore

/-- White space in front of a lexeme says nothing. -/
theorem opens_space {a b : Bool} {t rest : Text} {xs : List Lexeme} (h : Opens N a t xs b rest) :
    Opens N a (' ' :: t) xs b rest := by
  have hSpace : lex N a (' ' :: t) = lex N a t := by
    rw [lex]
    rfl
  rwa [Opens, hSpace]

/-- One lexeme in front. -/
theorem opens_of_lexeme? {operand : Bool} {c : Char} {t rest : Text} {x : Lexeme}
    (hSpace : isXmlSpace c = false)
    (h : lexeme? N operand (c :: (t ++ rest)) = some (x, (c :: t).length)) :
    Opens N operand (c :: (t ++ rest)) [x] x.endsOperand rest := by
  rw [Opens, lex, h]
  simp [hSpace]

/-- The characters that begin no name and no number, and are lexemes by themselves or the first
character of one. -/
def signs : List Char :=
  ['(', ')', '[', ']', '@', ',', ':', '\'', '"', '!', '/', '<', '>', '=', '+', '-', '|', '*', '.']

/-- Numbers and names, told from the rest by their first character. -/
theorem lexeme?_of_not_mem_signs {operand : Bool} {c : Char} {t : Text} (h : c ∉ signs) :
    lexeme? N operand (c :: t) =
      if isAsciiDigit c then
        some (.number ((c :: t).take (decimalLength (c :: t))), decimalLength (c :: t))
      else if N.start c then
        (nameLexeme? operand (c :: t.takeWhile N.char) (t.dropWhile N.char)).map
          (·, (c :: t.takeWhile N.char).length)
      else none := by
  unfold lexeme?
  split
  case h_1 => simp_all
  case h_21 =>
    rename_i hText
    obtain ⟨rfl, rfl⟩ := List.cons.inj hText
    rfl
  -- every other branch names its first character, which is one of the signs
  all_goals
    rename_i hText
    obtain ⟨rfl, -⟩ := List.cons.inj hText
    exact absurd (by decide) h

/-- What begins no lexeme of its own: the characters of a list of characters of ASCII that names do
not begin with. -/
theorem not_mem_of_start {c : Char} {list : List Char} (h : N.start c = true)
    (hList : list.all (fun d => d.toNat < 128 ∧ (isAsciiLetter d || d = '_') = false) = true) :
    c ∉ list := by
  intro hc
  obtain ⟨hAscii, hLetter⟩ := List.all_iff_forall_prop.mp hList c hc
  rw [N.start_eq_false hAscii hLetter] at h
  cases h

theorem isXmlSpace_of_start {c : Char} (h : N.start c = true) : isXmlSpace c = false := by
  have hList : c ∉ [' ', '\t', '\n', '\r'] := not_mem_of_start h (by decide)
  simpa [isXmlSpace, and_assoc] using hList

theorem isAsciiDigit_of_start {c : Char} (h : N.start c = true) : isAsciiDigit c = false := by
  cases hDigit : isAsciiDigit c with
  | false => rfl
  | true => exact absurd (AnPlusB.mem_digits hDigit) (not_mem_of_start h (by decide))

/-- The character behind a name does not go on with it. -/
def Stops (N : NameClass) (rest : Text) : Prop :=
  ∀ c ∈ rest.head?, N.char c = false

/-- A name is one lexeme, and the text behind it says which. -/
theorem opens_name {operand : Bool} {name rest : Text} {x : Lexeme} (hName : N.isName name = true)
    (hStops : Stops N rest) (h : nameLexeme? operand name rest = some x) :
    Opens N operand (name ++ rest) [x] x.endsOperand rest := by
  cases name with
  | nil => cases hName
  | cons c t =>
      simp only [NameClass.isName, Bool.and_eq_true, List.all_eq_true] at hName
      obtain ⟨hStart, hMore⟩ := hName
      have hTake : (t ++ rest).takeWhile N.char = t := by
        rw [List.takeWhile_append_of_pos hMore]
        cases rest with
        | nil => simp
        | cons d rest => simp [hStops d (by simp)]
      have hDrop : (t ++ rest).dropWhile N.char = rest := by
        rw [List.dropWhile_append_of_pos hMore]
        cases rest with
        | nil => simp
        | cons d rest => simp [hStops d (by simp)]
      refine opens_of_lexeme? (isXmlSpace_of_start hStart) ?_
      rw [lexeme?_of_not_mem_signs (not_mem_of_start hStart (by decide)),
        if_neg (by simp [isAsciiDigit_of_start hStart]), if_pos hStart, hTake, hDrop, h]
      rfl

def isAsciiWord : Text → Bool
  | [] => false
  | c :: t => (c.toNat < 128 && isAsciiLetter c) &&
      t.all fun d => d.toNat < 128 && (isAsciiLetter d || d = '-')

/-- Such names belong to every class. -/
theorem isName_of_isAsciiWord {word : Text} (N : NameClass) (h : isAsciiWord word = true) :
    N.isName word = true := by
  cases word with
  | nil => cases h
  | cons c t =>
      simp only [isAsciiWord, NameClass.isName, Bool.and_eq_true, List.all_eq_true,
        decide_eq_true_eq] at h ⊢
      obtain ⟨⟨hAscii, hLetter⟩, hMore⟩ := h
      constructor
      · rw [N.start_ascii c hAscii, hLetter]
        rfl
      · intro d hd
        obtain ⟨hAscii, hChar⟩ := hMore d hd
        rw [N.char_ascii d hAscii]
        simp only [Bool.or_eq_true, decide_eq_true_eq] at hChar ⊢
        rcases hChar with hChar | hChar
        · simp [hChar]
        · simp [hChar]

/-- The names of axes are names in every class. -/
theorem isAsciiWord_axis (axis : Axis) : isAsciiWord axis.name = true := by
  cases axis <;> decide

theorem isAsciiWord_function (function : CoreFunction) :
    isAsciiWord function.spelling = true := by
  cases function <;> decide

/-- A sign of ASCII ends a name. -/
theorem stops_cons (N : NameClass) {c : Char} {rest : Text} (hAscii : c.toNat < 128)
    (h : (isAsciiLetter c || c = '_' || isAsciiDigit c || c = '-' || c = '.') = false) :
    Stops N (c :: rest) := by
  intro d hd
  cases hd
  exact N.char_eq_false hAscii h

/-- What may stand behind an operand ends a name. -/
theorem stops_of_ends {rest : Text} (h : Ends rest) : Stops N rest := by
  intro c hc
  have hAll : ∀ d ∈ [')', ']', ',', '/', '[', ' ', '=', '<', '>'], d.toNat < 128 ∧
      (isAsciiLetter d || d = '_' || isAsciiDigit d || d = '-' || d = '.') = false :=
    List.all_iff_forall_prop.mp (by decide)
  obtain ⟨hAscii, hChar⟩ := hAll c (head_of_ends h c hc)
  exact N.char_eq_false hAscii hChar

/-- One character that is a lexeme. -/
theorem opens_sign {operand : Bool} {c : Char} {rest : Text} {x : Lexeme}
    (h : lexeme? N operand (c :: rest) = some (x, 1)) (hSpace : isXmlSpace c = false) :
    Opens N operand (c :: rest) [x] x.endsOperand rest :=
  opens_of_lexeme? (t := []) hSpace h

/-- Two characters that are a lexeme. -/
theorem opens_pair {operand : Bool} {c c' : Char} {rest : Text} {x : Lexeme}
    (h : lexeme? N operand (c :: c' :: rest) = some (x, 2)) (hSpace : isXmlSpace c = false) :
    Opens N operand (c :: c' :: rest) [x] x.endsOperand rest :=
  opens_of_lexeme? (t := [c']) hSpace h

/-- Axes are announced by their names, but for two. -/
def Axis.isNamed : Axis → Bool
  | .child | .attribute => false
  | _ => true

/-- An axis with a name is written with two colons. -/
theorem Axis.specifier_of_isNamed {axis : Axis} (h : axis.isNamed = true) :
    axis.specifier = axis.name ++ [':', ':'] ∧
      axis.lexemes = [.axis axis.name, .twoColons] := by
  cases axis with
  | child => cases h
  | «attribute» => cases h
  | _ => exact ⟨by decide, rfl⟩

/-- The lexemes of an axis are found at the start of what it is written as, be it a name, a sign or
nothing. -/
theorem opens_axis (axis : Axis) (rest : Text) :
    Opens N Bool.false (axis.specifier ++ rest) axis.lexemes Bool.false rest := by
  by_cases hNamed : axis.isNamed = true
  · obtain ⟨hSpecifier, hLexemes⟩ := Axis.specifier_of_isNamed hNamed
    have hLexeme : nameLexeme? Bool.false axis.name (':' :: ':' :: rest) =
        some (.axis axis.name) := by simp [nameLexeme?, isXmlSpace]
    have hName : Opens N Bool.false (axis.name ++ ':' :: ':' :: rest) [.axis axis.name] Bool.true
        (':' :: ':' :: rest) :=
      opens_name (isName_of_isAsciiWord N (isAsciiWord_axis axis))
        (stops_cons N (by decide) (by decide)) hLexeme
    have hColons : Opens N Bool.true (':' :: ':' :: rest) [.twoColons] Bool.false rest :=
      opens_pair (by simp [lexeme?]) (by decide)
    rw [hSpecifier, hLexemes, List.append_assoc]
    exact hName.cons hColons
  · cases axis with
    | child => exact .nil
    | «attribute» => exact opens_sign rfl rfl
    | _ => exact absurd rfl hNamed

/-- A name is found as far as it goes, since what ends an operand ends a name. -/
theorem opens_test {test : NodeTest} {rest : Text}
    (hNames : ∀ name ∈ test.names, N.isName name = true) (hEnds : Ends rest) :
    Opens N Bool.false (test.spelling ++ rest) test.lexemes Bool.true rest := by
  cases test with
  | any => exact opens_sign rfl rfl
  | named name =>
      have hNext := dropWhile_of_ends hEnds
      have hLexeme : nameLexeme? Bool.false name rest = some (.name name) := by
        unfold nameLexeme?
        rw [if_neg (by simp)]
        split
        · rename_i hRest
          exact absurd rfl (hNext '(' (by simp [hRest])).1
        · rename_i hRest
          exact absurd rfl (hNext ':' (by simp [hRest])).2
        · rfl
      exact opens_name (hNames name (by simp [NodeTest.names])) (stops_of_ends hEnds) hLexeme
  | text =>
      have hLexeme : nameLexeme? Bool.false "text".toList ('(' :: ')' :: rest) =
          some (.nodeType "text".toList) := by simp [nameLexeme?, isXmlSpace, nodeTypes]
      have hType : Opens N Bool.false ("text".toList ++ '(' :: ')' :: rest)
          [.nodeType "text".toList] Bool.true ('(' :: ')' :: rest) :=
        opens_name (isName_of_isAsciiWord N (by decide)) (stops_cons N (by decide) (by decide))
          hLexeme
      have hOpen : Opens N Bool.true ('(' :: ')' :: rest) [.leftParenthesis] Bool.false
          (')' :: rest) := opens_sign rfl rfl
      have hClose : Opens N Bool.false (')' :: rest) [.rightParenthesis] Bool.true rest :=
        opens_sign rfl rfl
      exact hType.cons (hOpen.cons hClose)

/-- Operators that are a word, between spaces; the others are signs. -/
theorem opens_operator (operator : Operator) (rest : Text) :
    Opens N Bool.true (operator.spelling ++ rest) [.operator operator.sign] Bool.false rest := by
  have hWord : ∀ word ∈ ["or".toList, "and".toList, "mod".toList],
      Opens N Bool.true (' ' :: (word ++ ' ' :: rest)) [.operator word] Bool.false rest := by
    intro word hMem
    have hAscii : ∀ word ∈ ["or".toList, "and".toList, "mod".toList],
        isAsciiWord word = true ∧ word ∈ operatorNames := by decide
    obtain ⟨hAscii, hOperator⟩ := hAscii word hMem
    have hName : Opens N Bool.true (word ++ ' ' :: rest) [.operator word] Bool.false
        (' ' :: rest) :=
      opens_name (isName_of_isAsciiWord N hAscii) (stops_cons N (by decide) (by decide))
        (by simp [nameLexeme?, hOperator])
    exact opens_space (hName.append (opens_space .nil))
  have hSign : ∀ c ∈ ['+', '-', '|'],
      Opens N Bool.true (' ' :: c :: ' ' :: rest) [.operator [c]] Bool.false rest := by
    intro c hMem
    have hLexeme : lexeme? N Bool.true (c :: ' ' :: rest) = some (.operator [c], 1) := by
      simp only [List.mem_cons, List.not_mem_nil, or_false] at hMem
      rcases hMem with rfl | rfl | rfl <;> rfl
    have hSpace : ∀ c ∈ ['+', '-', '|'], isXmlSpace c = false :=
      List.all_iff_forall_prop.mp (by decide)
    have hOpens : Opens N Bool.true (c :: ' ' :: rest) [.operator [c]] Bool.false (' ' :: rest) :=
      opens_sign hLexeme (hSpace c hMem)
    exact opens_space (hOpens.append (opens_space .nil))
  cases operator with
  | or => exact hWord "or".toList (by decide)
  | and => exact hWord "and".toList (by decide)
  | modulo => exact hWord "mod".toList (by decide)
  | plus => exact hSign '+' (by decide)
  | minus => exact hSign '-' (by decide)
  | union => exact hSign '|' (by decide)
  | equal => exact opens_sign rfl rfl
  | atMost => exact opens_pair rfl rfl
  | atLeast => exact opens_pair rfl rfl

/-- A quotation mark opens a constant, be there an operand in front or not. -/
theorem lexeme?_mark (operand : Bool) (mark : QuoteMark) (t : Text) :
    lexeme? N operand (mark.char :: t) = literal? mark t := by
  cases mark <;> rfl

/-- A string ends at the first mark. -/
theorem takeWhile_ne_mark {mark : QuoteMark} {content : Text} (h : mark.char ∉ content)
    (rest : Text) : (content ++ mark.char :: rest).takeWhile (· ≠ mark.char) = content := by
  rw [List.takeWhile_append_of_pos (by
    intro c hc
    simpa using fun hSame : c = mark.char => h (hSame ▸ hc))]
  simp

/-- A constant is found up to its closing mark. -/
theorem opens_literal {mark : QuoteMark} {content : Text} (h : mark.char ∉ content) (rest : Text) :
    Opens N Bool.false (mark.char :: (content ++ mark.char :: rest)) [.literal mark content]
      Bool.true rest := by
  have hTake := takeWhile_ne_mark h rest
  have hLiteral : literal? mark (content ++ mark.char :: rest) =
      some (.literal mark content, content.length + 2) := by
    rw [literal?, if_pos (by simp)]
    simp only [hTake]
  have hLexeme : lexeme? N Bool.false (mark.char :: (content ++ [mark.char] ++ rest)) =
      some (.literal mark content, (mark.char :: (content ++ [mark.char])).length) := by
    rw [lexeme?_mark, List.append_assoc, List.singleton_append, hLiteral]
    simp
  have hOpens := opens_of_lexeme? (by cases mark <;> decide) hLexeme
  rwa [List.append_assoc] at hOpens

/-- Digits are measured up to the first other character, if it is no point. -/
theorem decimalLength_digits {digits rest : Text} (hDigits : digits.all isAsciiDigit = true)
    (hEnds : ∀ c ∈ rest.head?, isAsciiDigit c = false ∧ c ≠ '.') :
    decimalLength (digits ++ rest) = digits.length := by
  have hLength : digitsLength (digits ++ rest) = digits.length := by
    rw [digitsLength, List.takeWhile_append_of_pos (List.all_eq_true.mp hDigits)]
    cases rest with
    | nil => simp
    | cons c rest => simp [(hEnds c rfl).1]
  rw [decimalLength]
  simp only [hLength, List.drop_left]
  split
  · exact absurd rfl (hEnds '.' rfl).2
  · rfl

/-- A whole number is found with all of its digits. -/
theorem opens_number (n : Nat) {rest : Text} (hEnds : Ends rest) :
    Opens N Bool.false (Nat.toDigits 10 n ++ rest) [.number (Nat.toDigits 10 n)] Bool.true
      rest := by
  have hDigits : (Nat.toDigits 10 n).all isAsciiDigit = true :=
    List.all_eq_true.mpr fun c hc => AnPlusB.isAsciiDigit_of_mem_toDigits hc
  have hNext : ∀ c ∈ rest.head?, isAsciiDigit c = false ∧ c ≠ '.' := by
    have hAll : ∀ c ∈ [')', ']', ',', '/', '[', ' ', '=', '<', '>'],
        isAsciiDigit c = false ∧ c ≠ '.' := List.all_iff_forall_prop.mp (by decide)
    exact fun c hc => hAll c (head_of_ends hEnds c hc)
  have hLength := decimalLength_digits hDigits hNext
  obtain ⟨c, t, hSplit⟩ := List.exists_cons_of_ne_nil (Nat.toDigits_ne_nil (n := n) (b := 10))
  rw [hSplit] at hDigits hLength ⊢
  have hDigit : isAsciiDigit c = true := List.all_eq_true.mp hDigits c (by simp)
  have hSigns : ∀ c ∈ AnPlusB.asciiDigits,
      c ∉ signs ∧ isXmlSpace c = false := List.all_iff_forall_prop.mp (by decide)
  obtain ⟨hSign, hSpace⟩ := hSigns c (AnPlusB.mem_digits hDigit)
  refine opens_of_lexeme? hSpace ?_
  rw [List.cons_append] at hLength
  rw [lexeme?_of_not_mem_signs hSign, if_pos hDigit, hLength, ← List.cons_append, List.take_left]

theorem opens_dot {rest : Text} (hEnds : Ends rest) :
    Opens N Bool.false ('.' :: rest) [.dot] Bool.true rest := by
  refine opens_sign ?_ rfl
  have hAll : ∀ c ∈ [')', ']', ',', '/', '[', ' ', '=', '<', '>'],
      isAsciiDigit c = false ∧ c ≠ '.' := List.all_iff_forall_prop.mp (by decide)
  cases rest with
  | nil => rfl
  | cons c rest =>
      obtain ⟨hDigit, hDot⟩ := hAll c (head_of_ends hEnds c rfl)
      simp [lexeme?, hDigit, hDot]

/-- A name in front of a parenthesis is that of a function. -/
theorem opens_function (function : CoreFunction) (rest : Text) :
    Opens N Bool.false (function.spelling ++ '(' :: rest)
      [.function function.spelling, .leftParenthesis] Bool.false rest := by
  have hNode : function.spelling ∉ nodeTypes := by cases function <;> decide
  have hLexeme : nameLexeme? Bool.false function.spelling ('(' :: rest) =
      some (.function function.spelling) := by simp [nameLexeme?, isXmlSpace, hNode]
  have hName : Opens N Bool.false (function.spelling ++ '(' :: rest)
      [.function function.spelling] Bool.true ('(' :: rest) :=
    opens_name (isName_of_isAsciiWord N (isAsciiWord_function function))
      (stops_cons N (by decide) (by decide)) hLexeme
  exact hName.cons (opens_sign rfl rfl)

/-- A slash behind an operand goes on with its path. -/
theorem opens_slash (axis : Axis) {test : NodeTest} (rest : Text)
    (hNames : ∀ name ∈ test.names, N.isName name = true) :
    Opens N Bool.true ('/' :: (axis.specifier ++ (test.spelling ++ rest))) [.operator ['/']]
      Bool.false (axis.specifier ++ (test.spelling ++ rest)) := by
  have hTest : (test.spelling ++ rest).head? ≠ some '/' := by
    cases test with
    | named name =>
        cases name with
        | nil => cases hNames [] (by simp [NodeTest.names])
        | cons c name =>
            have hName := hNames (c :: name) (by simp [NodeTest.names])
            rw [NameClass.isName, Bool.and_eq_true] at hName
            have hSlash : c ∉ ['/'] := not_mem_of_start hName.1 (by decide)
            intro hHead
            obtain rfl : c = '/' := Option.some.inj hHead
            exact hSlash (List.mem_singleton_self _)
    | any | text =>
        intro hHead
        have hChar := Option.some.inj hHead
        revert hChar
        decide
  have hAxis : axis.specifier.head? ≠ some '/' := by cases axis <;> decide
  have hHead : (axis.specifier ++ (test.spelling ++ rest)).head? ≠ some '/' := by
    rw [List.head?_append]
    revert hAxis
    cases axis.specifier.head? with
    | none => exact fun _ => hTest
    | some c => exact id
  generalize axis.specifier ++ (test.spelling ++ rest) = t at hHead
  have hLexeme : lexeme? N Bool.true ('/' :: t) = some (.operator ['/'], 1) := by
    simp [lexeme?, longer, hHead]
  exact opens_of_lexeme? (t := []) (by decide) hLexeme

/-- Between arguments there are commas, and a parenthesis behind the last. -/
theorem ends_more (arguments : List Expr) (rest : Text) :
    Ends (writeMoreArguments arguments (')' :: rest)) := by
  cases arguments with
  | nil => exact .closer (by simp)
  | cons argument arguments => exact .closer (by simp)

mutual

/-- The lexemes of a path are found in its text, by induction on the path and on the predicates in
it. -/
theorem LocationPath.opens_write : ∀ (path : LocationPath) {rest : Text}, path.isShaped = true →
    (∀ name ∈ path.names, N.isName name = true) → Ends rest →
    Opens N Bool.false (path.write rest) path.lexemes Bool.true rest
  | .here, rest, _, _, hEnds => opens_dot hEnds
  | .step axis test, rest, _, hNames, hEnds => (opens_axis axis _).append (opens_test hNames hEnds)
  | .next path axis test, rest, h, hNames, hEnds => by
      rw [LocationPath.isShaped, Bool.and_eq_true] at h
      rw [LocationPath.names, List.forall_mem_append] at hNames
      have hPath := path.opens_write h.1 hNames.1
        (.closer (t := axis.specifier ++ (test.spelling ++ rest)) (c := '/') (by simp))
      have hStep := (opens_axis axis _).append (opens_test hNames.2 hEnds)
      exact hPath.append ((opens_slash axis rest hNames.2).cons hStep)
  | .filter path predicate, rest, h, hNames, hEnds => by
      rw [LocationPath.isShaped, Bool.and_eq_true, Bool.and_eq_true] at h
      rw [LocationPath.names, List.forall_mem_append] at hNames
      obtain ⟨⟨k, type⟩, hShape⟩ := Option.isSome_iff_exists.mp h.2
      have hPath := path.opens_write h.1.2 hNames.1
        (.closer (t := predicate.write (']' :: rest)) (c := '[') (by simp))
      have hPredicate := predicate.opens_write hShape hNames.2
        (.closer (t := rest) (c := ']') (by simp))
      have hOpen : Opens N Bool.true ('[' :: predicate.write (']' :: rest)) [.leftBracket]
          Bool.false (predicate.write (']' :: rest)) := opens_sign rfl rfl
      have hClose : Opens N Bool.true (']' :: rest) [.rightBracket] Bool.true rest :=
        opens_sign rfl rfl
      exact hPath.append (hOpen.cons (hPredicate.append hClose))

/-- What is written for an expression opens with its lexemes. -/
theorem Expr.opens_write : ∀ (e : Expr) {k : Nat} {type : ValueType} {rest : Text},
    e.shape? = some (k, type) → (∀ name ∈ e.names, N.isName name = true) → Ends rest →
    Opens N Bool.false (e.write rest) e.lexemes Bool.true rest
  | .path path, k, type, rest, h, hNames, hEnds => by
      rw [Expr.shape?] at h
      split at h
      · rename_i hPath
        exact path.opens_write hPath hNames hEnds
      · cases h
  | .literal mark content, k, type, rest, h, _, _ => by
      rw [Expr.shape?] at h
      split at h
      · rename_i hMark
        exact opens_literal hMark rest
      · cases h
  | .number n, k, type, rest, _, _, hEnds => opens_number n hEnds
  | .call function arguments, k, type, rest, h, hNames, _ => by
      rw [Expr.shape?] at h
      obtain ⟨types, hTypes, -⟩ := Option.bind_eq_some_iff.mp h
      exact (opens_function function _).append (opens_writeArguments arguments hTypes hNames)
  | .binary operator left right, k, type, rest, h, hNames, hEnds => by
      rw [Expr.shape?] at h
      rw [Expr.names, List.forall_mem_append] at hNames
      obtain ⟨l, hLeft, h⟩ := Option.bind_eq_some_iff.mp h
      obtain ⟨r, hRight, -⟩ := Option.bind_eq_some_iff.mp h
      have hFirst := left.opens_write hLeft hNames.1 (.operator operator (right.write rest))
      have hSecond := right.opens_write hRight hNames.2 hEnds
      exact hFirst.append ((opens_operator operator _).cons hSecond)
  | .group inner, k, type, rest, h, hNames, _ => by
      rw [Expr.shape?] at h
      obtain ⟨shape, hShape, -⟩ := Option.map_eq_some_iff.mp h
      have hInner := inner.opens_write hShape hNames
        (.closer (t := rest) (c := ')') (by simp))
      have hOpen : Opens N Bool.false ('(' :: inner.write (')' :: rest)) [.leftParenthesis]
          Bool.false (inner.write (')' :: rest)) := opens_sign rfl rfl
      have hClose : Opens N Bool.true (')' :: rest) [.rightParenthesis] Bool.true rest :=
        opens_sign rfl rfl
      exact hOpen.cons (hInner.append hClose)

/-- The lexemes of arguments are found with the parenthesis that closes the call. -/
theorem opens_writeArguments : ∀ (arguments : List Expr) {types : List ValueType} {rest : Text},
    typesOf? arguments = some types → (∀ name ∈ argumentNames arguments, N.isName name = true) →
    Opens N Bool.false (writeArguments arguments (')' :: rest))
      (argumentLexemes arguments ++ [.rightParenthesis]) Bool.true rest
  | [], _, rest, _, _ => opens_sign rfl rfl
  | argument :: more, types, rest, h, hNames => by
      rw [typesOf?] at h
      rw [argumentNames, List.forall_mem_append] at hNames
      obtain ⟨shape, hShape, h⟩ := Option.bind_eq_some_iff.mp h
      obtain ⟨types', hTypes, -⟩ := Option.map_eq_some_iff.mp h
      have hFirst := argument.opens_write hShape hNames.1 (ends_more more rest)
      rw [argumentLexemes, List.append_assoc]
      exact hFirst.append (opens_writeMoreArguments more hTypes hNames.2)

theorem opens_writeMoreArguments : ∀ (arguments : List Expr) {types : List ValueType}
    {rest : Text}, typesOf? arguments = some types →
    (∀ name ∈ argumentNames arguments, N.isName name = true) →
    Opens N Bool.true (writeMoreArguments arguments (')' :: rest))
      (moreLexemes arguments ++ [.rightParenthesis]) Bool.true rest
  | [], _, rest, _, _ => opens_sign rfl rfl
  | argument :: more, types, rest, h, hNames => by
      rw [typesOf?] at h
      rw [argumentNames, List.forall_mem_append] at hNames
      obtain ⟨shape, hShape, h⟩ := Option.bind_eq_some_iff.mp h
      obtain ⟨types', hTypes, -⟩ := Option.map_eq_some_iff.mp h
      have hComma : Opens N Bool.true
          (',' :: ' ' :: argument.write (writeMoreArguments more (')' :: rest))) [.comma]
          Bool.false (' ' :: argument.write (writeMoreArguments more (')' :: rest))) :=
        opens_sign rfl rfl
      have hFirst := argument.opens_write hShape hNames.1 (ends_more more rest)
      rw [moreLexemes, List.cons_append, List.append_assoc]
      exact hComma.cons
        (opens_space (hFirst.append (opens_writeMoreArguments more hTypes hNames.2)))

end

/-- An expression that has a shape is read again from its text, if its names are names. -/
theorem reads_text {e : Expr} {k : Nat} {type : ValueType} (h : e.shape? = some (k, type))
    (hNames : ∀ name ∈ e.names, N.isName name = true) : N.Reads e.text e := by
  have hOpens := e.opens_write h hNames Ends.nil
  rw [Opens, lex, Option.map_some, List.append_nil] at hOpens
  exact ⟨e.lexemes, hOpens, e.written h (Nat.zero_le k)⟩

end

theorem isBeyondAscii_eq_false {c : Char} (h : c.toNat < 128) : isBeyondAscii c = false := by
  rw [isBeyondAscii, decide_eq_false_iff_not]
  omega

/-- The class of the names that are written bare. -/
def NameClass.bare : NameClass where
  start := isBareStart
  char := isBareChar
  start_ascii c h := by simp [isBareStart, isLetter, isBeyondAscii_eq_false h]
  char_ascii c h := by
    simp only [isBareChar, isBareStart, isLetter, isLetterOrNumber, isBeyondAscii_eq_false h,
      Bool.false_and, Bool.or_false]
    cases isAsciiLetter c <;> simp

/-- The class has the bare names and no others. -/
theorem NameClass.isName_bare (name : Text) : NameClass.bare.isName name = isBareName name := by
  cases name <;> rfl

/-- The expression is the only one that the text is read as. The names in it are bare, and nothing
more is asked of a class of names than to have these. -/
def Expr.IsReadingOf (e : Expr) (t : Text) : Prop :=
  (∀ name ∈ e.names, isBareName name = true) ∧
    ∀ N : NameClass, (∀ name ∈ e.names, N.isName name = true) → ∀ e', N.Reads t e' ↔ e' = e

/-- A text has one reading at most. -/
theorem Expr.IsReadingOf.unique {e e' : Expr} {t : Text} (h : e.IsReadingOf t)
    (h' : e'.IsReadingOf t) : e = e' := by
  have hReads : NameClass.bare.Reads t e := by
    refine (h.2 _ (fun name hName => ?_) e).mpr rfl
    rw [NameClass.isName_bare, h.1 name hName]
  refine (h'.2 NameClass.bare (fun name hName => ?_) e).mp hReads
  rw [NameClass.isName_bare, h'.1 name hName]

/-- An expression that fits is the only one that its text is read as. -/
theorem isReadingOf_text {e : Expr} {level : Nat} {type : ValueType} (h : e.Fits level type) :
    e.IsReadingOf e.text := by
  obtain ⟨k, hShape, -⟩ := h
  refine ⟨e.isBareName_of_mem_names hShape, fun N hNames e' => ?_⟩
  have hReads := reads_text hShape hNames
  constructor
  · exact fun hOther => hOther.unique hReads
  · rintro rfl
    exact hReads

end SelectorXPath.XPath
