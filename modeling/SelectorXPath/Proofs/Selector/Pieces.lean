import SelectorXPath.Proofs.Selector.Grammar
import SelectorXPath.Proofs.Token.Pieces

/-! Spellings of the parts of a compound that hold no selectors. Each is read in the modes in which
its part may stand, and the tokens write what was spelled. -/

namespace SelectorXPath

open SelectorXPath.Text

def quotedSpelling (text : Text) : Text :=
  '"' :: (text.flatMap quotable ++ ['"'])

/-- The spelling of a local name, which is an asterisk if every name is meant. -/
def localSpelling : Option Text → Text
  | some name => nameSpelling name
  | none => ['*']

def Qualifier.spelling : Qualifier → Text
  | .absent => []
  | .any => ['*', '|']
  | .noNamespace => ['|']
  | .named name => nameSpelling name ++ ['|']

def AttributeOperator.spelling : AttributeOperator → Text
  | .equals => ['=']
  | .includes => ['~', '=']
  | .dashMatch => ['|', '=']
  | .beginning => ['^', '=']
  | .ending => ['$', '=']
  | .inside => ['*', '=']

def comparisonSpelling : Option Comparison → Text
  | none => []
  | some comparison => comparison.operator.spelling ++ quotedSpelling comparison.value

def AttributeTest.spelling (test : AttributeTest) : Text :=
  '[' :: (test.qualifier.spelling ++ nameSpelling test.name ++
    comparisonSpelling test.comparison ++ [']'])

namespace Mode

variable {mode : Mode} {rest : Text} {p : List Token → Prop}

/-- The inside of a string is read up to the closing mark. -/
theorem reads_inside {mark : QuoteMark} {inside text : Text} (h : mark.Spells inside text) :
    (Mode.string mark).Reads inside (mark.char :: rest)
      fun ts => ∀ stop : Token, stop.kind = .stringEnd mark →
        Grammar.WritesString mark (ts ++ [stop]) text := by
  induction hLength : inside.length using Nat.strong_induction_on generalizing inside text with
  | _ n ih =>
      obtain ⟨run, inside', text', rfl, rfl, hRun, hNext, hRest⟩ := h.exists_run
      cases run with
      | cons c run =>
          obtain ⟨hFirst, hRun⟩ := List.forall_mem_cons.mp hRun
          have hStop : ∀ d ∈ (inside' ++ mark.char :: rest).head?, mark.isPlain d = false := by
            cases inside' with
            | nil => simp [QuoteMark.isPlain]
            | cons d inside' => exact hNext
          have hShorter : inside'.length < n := by
            rw [← hLength, List.cons_append, List.length_cons, List.length_append]
            omega
          refine Reads.append (reads_run hFirst hRun hStop) (ih _ hShorter hRest rfl) ?_
          rintro _ us ⟨t, rfl, hKind, hSpelling⟩ hWritten stop hStop
          have hAll := Grammar.WritesString.chars hKind (hWritten stop hStop)
          rw [hSpelling] at hAll
          exact hAll
      | nil =>
          cases hRest with
          | nil => exact Reads.nil fun stop hStop => .close hStop
          | plain hMark hSlash _ =>
              have hPlain := hNext _ rfl
              rw [QuoteMark.isPlain_iff.mpr ⟨hSlash, hMark⟩] at hPlain
              cases hPlain
          | @pair c inside text hSpecial hMore =>
              have hShorter : inside.length < n := by
                rw [← hLength, List.nil_append, List.length_cons, List.length_cons]
                omega
              show (Mode.string mark).Reads (['\\', c] ++ inside) _ _
              refine Reads.append (reads_pair hSpecial) (ih _ hShorter hMore rfl) ?_
              rintro _ us ⟨t, rfl, hKind, hSpelling⟩ hWritten stop hStop
              have hAll := Grammar.WritesString.escaped hKind (hWritten stop hStop)
              rw [hSpelling] at hAll
              exact hAll

/-- Strings between marks of either kind are read where values are. -/
theorem reads_marked {mark : QuoteMark} {inside text : Text} (h : mark.Spells inside text)
    (hMode : mode = .attribute ∨ mode = .argument) :
    mode.Reads (mark.char :: (inside ++ [mark.char])) rest
      fun ts => Grammar.WritesValue ts text := by
  have hStart : mode.recognize? (mark.char :: (inside ++ mark.char :: rest)) =
      some (.stringStart mark, 1) := by
    rcases hMode with rfl | rfl <;> cases mark <;> rfl
  have hStop : (Mode.string mark).recognize? (mark.char :: rest) =
      some (.stringEnd mark, 1) := by
    cases mark <;> rfl
  have hClosed : mode.isClosedBy (.stringStart mark) = false := by
    rcases hMode with rfl | rfl <;> rfl
  have hOpened : mode.opened? (.stringStart mark) = some (.string mark) := by
    rcases hMode with rfl | rfl <;> rfl
  have hClosed' : (Mode.string mark).isClosedBy (.stringEnd mark) = true := by
    cases mark <;> rfl
  exact Reads.enclosed hStart hClosed hOpened rfl (reads_inside h) hStop hClosed' rfl
    fun start ts stop hStart hTokens hStop => .string hStart (hTokens stop hStop)

/-- A text between double quotation marks is read back as a value. -/
theorem reads_quoted (text : Text) (hMode : mode = .attribute ∨ mode = .argument) :
    mode.Reads (quotedSpelling text) rest fun ts => Grammar.WritesValue ts text := by
  have hInside : QuoteMark.double.Spells (text.flatMap quotable) text := .flatMap_guarded .double text
  exact reads_marked hInside hMode

/-- A local name does not begin with an equals sign, so that a bar in front of it is no operator. -/
theorem head?_localSpelling {name : Option Text} (hName : ∀ text, name = some text → text ≠ []) :
    (localSpelling name ++ rest).head? ≠ some '=' := by
  cases name with
  | none => simp [localSpelling]
  | some name =>
      obtain ⟨c, name, rfl⟩ := List.exists_cons_of_ne_nil (hName name rfl)
      obtain ⟨t, h⟩ := escaped_eq_cons c
      simp [localSpelling, nameSpelling, h]

/-- A local name is read back. Between brackets it may not be an asterisk, which a test of
attributes does not allow. -/
theorem reads_localName {name : Option Text} (hMode : mode.HoldsNames)
    (hName : ∀ text, name = some text → text ≠ []) (hRest : nameLength rest = 0)
    (hEvery : mode = .attribute → name ≠ none) :
    mode.Reads (localSpelling name) rest
      fun ts => ∃ t, ts = [t] ∧ Grammar.WritesLocalName t name := by
  cases name with
  | some name =>
      refine (reads_name hMode (hName name rfl) hRest).mono ?_
      rintro _ ⟨t, rfl, hKind, hText⟩
      have hWritten := Grammar.WritesLocalName.name hKind
      rw [hText, unescape_nameSpelling] at hWritten
      exact ⟨t, rfl, hWritten⟩
  | none =>
      refine (reads_universal hMode fun h => absurd rfl (hEvery h)).mono ?_
      rintro _ ⟨t, rfl, hKind, -⟩
      exact ⟨t, rfl, .every hKind⟩

/-- A name with its qualifier is read where names are, but the asterisk as a local name only where
selectors are. -/
theorem reads_qualifiedName (name : Qualifier × Option Text) (hMode : mode.HoldsNames)
    (hQualifier : ∀ key, name.1 = .named key → key ≠ [])
    (hName : ∀ text, name.2 = some text → text ≠ []) (hRest : nameLength rest = 0)
    (hEvery : mode = .attribute → name.2 ≠ none) :
    mode.Reads (name.1.spelling ++ localSpelling name.2) rest
      fun ts => Grammar.WritesName ts name := by
  obtain ⟨qualifier, name⟩ := name
  have hLocal := reads_localName hMode hName hRest hEvery
  have hNext : (localSpelling name ++ rest).head? ≠ some '=' := head?_localSpelling hName
  have hBar := reads_bar hMode hNext
  cases qualifier with
  | absent =>
      refine hLocal.mono ?_
      rintro _ ⟨t, rfl, h⟩
      exact .plain h
  | noNamespace =>
      refine hBar.append hLocal ?_
      rintro _ _ ⟨bar, rfl, hKind, -⟩ ⟨t, rfl, h⟩
      exact .unqualified hKind h
  | any =>
      have hStar : mode.Reads ['*'] ('|' :: (localSpelling name ++ rest))
          (IsOne .universal ['*']) := reads_universal hMode fun _ => by simp
      have hBoth : mode.Reads ['*', '|'] (localSpelling name ++ rest)
          fun ts => ∃ p bar, ts = [p, bar] ∧ Grammar.WritesLocalName p none ∧
            bar.kind = .namespaceSeparator := by
        refine hStar.append hBar ?_
        rintro _ _ ⟨p, rfl, hPrefix, -⟩ ⟨bar, rfl, hKind, -⟩
        exact ⟨p, bar, rfl, .every hPrefix, hKind⟩
      refine hBoth.append hLocal ?_
      rintro _ _ ⟨p, bar, rfl, hPrefix, hKind⟩ ⟨t, rfl, h⟩
      exact .everywhere hPrefix hKind h
  | named key =>
      have hKey : mode.Reads (nameSpelling key) ('|' :: (localSpelling name ++ rest))
          (IsOne .identifier (nameSpelling key)) :=
        reads_name hMode (hQualifier key rfl) (nameLength_cons_eq_zero (by decide) (by decide))
      have hBoth : mode.Reads (nameSpelling key ++ ['|']) (localSpelling name ++ rest)
          fun ts => ∃ p bar, ts = [p, bar] ∧ Grammar.WritesLocalName p (some key) ∧
            bar.kind = .namespaceSeparator := by
        refine hKey.append hBar ?_
        rintro _ _ ⟨p, rfl, hPrefix, hText⟩ ⟨bar, rfl, hKind, -⟩
        have hWritten := Grammar.WritesLocalName.name hPrefix
        rw [hText, unescape_nameSpelling] at hWritten
        exact ⟨p, bar, rfl, hWritten, hKind⟩
      refine hBoth.append hLocal ?_
      rintro _ _ ⟨p, bar, rfl, hPrefix, hKind⟩ ⟨t, rfl, h⟩
      exact .qualified hPrefix hKind h

theorem ofSymbol?_spelling (operator : AttributeOperator) :
    AttributeOperator.ofSymbol? operator.spelling = some operator := by
  cases operator <;> rfl

/-- The sign of an operator is one token between brackets. -/
theorem reads_operator (operator : AttributeOperator) :
    Mode.attribute.Reads operator.spelling rest
      (IsOne .attributeOperator operator.spelling) := by
  have hKeeps : Mode.attribute.Keeps .attributeOperator :=
    keeps_of_mem (Or.inr rfl) (by simp [keptKinds])
  cases operator <;>
    exact Reads.token hKeeps rfl fun offset => ⟨_, rfl, rfl, rfl⟩

/-- A comparison is read back, or there is none. -/
theorem reads_comparison (comparison : Option Comparison) :
    Mode.attribute.Reads (comparisonSpelling comparison) rest
      fun ts => Grammar.WritesComparison ts comparison := by
  cases comparison with
  | none => exact Reads.nil .absent
  | some comparison =>
      refine (reads_operator comparison.operator).append
        (reads_quoted comparison.value (Or.inl rfl)) ?_
      rintro _ us ⟨t, rfl, hKind, hText⟩ hValue
      have hSign : AttributeOperator.ofSymbol? t.text = some comparison.operator := by
        rw [hText, ofSymbol?_spelling]
      have hBlank := Grammar.Blank.nil
      have hWritten := Grammar.WritesComparison.present hKind hSign hBlank hValue hBlank
      rw [List.nil_append, List.append_nil] at hWritten
      exact hWritten

/-- Neither an operator nor a closing bracket goes on with the name in front. -/
theorem nameLength_comparisonSpelling (comparison : Option Comparison) :
    nameLength (comparisonSpelling comparison ++ ']' :: rest) = 0 := by
  cases comparison with
  | none => exact nameLength_cons_eq_zero (by decide) (by decide)
  | some comparison =>
      obtain ⟨operator, value⟩ := comparison
      cases operator <;> exact nameLength_cons_eq_zero (by decide) (by decide)

/-- An attribute test is read back. Its name and its prefix must not be empty. -/
theorem reads_attribute (test : AttributeTest) (hMode : mode.HoldsSelectors)
    (hQualifier : ∀ key, test.qualifier = .named key → key ≠ []) (hName : test.name ≠ []) :
    mode.Reads test.spelling rest fun ts => Grammar.WritesAttribute ts test := by
  have hNameReads : Mode.attribute.Reads (test.qualifier.spelling ++ nameSpelling test.name)
      (comparisonSpelling test.comparison ++ ']' :: rest)
      fun ts => Grammar.WritesName ts (test.qualifier, some test.name) :=
    reads_qualifiedName (test.qualifier, some test.name) (Or.inr rfl) hQualifier
      (by simpa using hName) (nameLength_comparisonSpelling test.comparison) (by simp)
  have hInside : Mode.attribute.Reads
      (test.qualifier.spelling ++ nameSpelling test.name ++
        comparisonSpelling test.comparison) (']' :: rest)
      fun ts => ∃ ns cs, ts = ns ++ cs ∧ Grammar.WritesName ns (test.qualifier, some test.name) ∧
        Grammar.WritesComparison cs test.comparison :=
    hNameReads.append (reads_comparison test.comparison)
      fun ns cs hNs hCs => ⟨ns, cs, rfl, hNs, hCs⟩
  have hWritten : ∀ start ts stop, start.kind = Token.Kind.attributeStart →
      (∃ ns cs, ts = ns ++ cs ∧ Grammar.WritesName ns (test.qualifier, some test.name) ∧
        Grammar.WritesComparison cs test.comparison) →
      stop.kind = Token.Kind.attributeEnd →
      Grammar.WritesAttribute (start :: (ts ++ [stop])) test := by
    rintro start _ stop hStart ⟨ns, cs, rfl, hNs, hCs⟩ hStop
    have hBlank := Grammar.Blank.nil
    have hAll := Grammar.WritesAttribute.intro hStart hBlank hNs hBlank hCs hStop
    rw [List.nil_append, List.append_nil] at hAll
    exact hAll
  have hStop : Mode.attribute.recognize? (']' :: rest) = some (.attributeEnd, 1) := rfl
  rcases hMode with rfl | rfl
  · exact Reads.enclosed rfl rfl rfl rfl hInside hStop rfl rfl hWritten
  · exact Reads.enclosed rfl rfl rfl rfl hInside hStop rfl rfl hWritten

/-- Pseudo-classes are spelled without escapes. -/
theorem isKeyword_pseudoClass (pseudoClass : PseudoClass) :
    isKeyword pseudoClass.name = true := by
  cases pseudoClass <;> decide

theorem isKeyword_functionalClass (functional : FunctionalClass) :
    isKeyword functional.name = true := by
  obtain (_ | _ | _ | _) | _ | _ | _ := functional <;> decide

/-- A word in lower case is named as it is spelled. -/
theorem pseudoName_of_isKeyword {t : Token} {word : Text} (hWord : isKeyword word = true)
    (hText : t.text = ':' :: word) : Parser.pseudoName t = word := by
  rw [Parser.pseudoName, hText]
  exact lower_unescape_of_isKeyword hWord

/-- Parentheses are read if an argument is read between them. -/
theorem reads_parentheses {inside : Text} (hMode : mode.HoldsSelectors)
    (h : Mode.argument.Reads inside (')' :: rest) p) :
    mode.Reads ('(' :: (inside ++ [')'])) rest
      fun ts => ∃ start us stop, ts = start :: (us ++ [stop]) ∧
        start.kind = .parenthesesStart ∧ stop.kind = .parenthesesEnd ∧ p us := by
  have hStop : Mode.argument.recognize? (')' :: rest) = some (.parenthesesEnd, 1) := rfl
  rcases hMode with rfl | rfl
  · exact Reads.enclosed rfl rfl rfl rfl h hStop rfl rfl
      fun start us stop hStart hTokens hStop => ⟨start, us, stop, rfl, hStart, hStop, hTokens⟩
  · exact Reads.enclosed rfl rfl rfl rfl h hStop rfl rfl
      fun start us stop hStart hTokens hStop => ⟨start, us, stop, rfl, hStart, hStop, hTokens⟩

/-- A functional pseudo-class is read if its argument is. -/
theorem reads_functional {inside : Text} (functional : FunctionalClass)
    (hMode : mode.HoldsSelectors) (h : Mode.argument.Reads inside (')' :: rest) p) :
    mode.Reads (':' :: functional.name ++ '(' :: (inside ++ [')'])) rest
      fun ts => ∃ t start us stop, ts = t :: start :: (us ++ [stop]) ∧
        Grammar.Encloses t start stop functional ∧ p us := by
  have hWord := isKeyword_functionalClass functional
  have hName : mode.Reads (':' :: functional.name) ('(' :: (inside ++ [')']) ++ rest)
      (IsOne .pseudoClass (':' :: functional.name)) :=
    reads_pseudoClass hMode hWord (nameLength_cons_eq_zero (by decide) (by decide))
  refine hName.append (reads_parentheses hMode h) ?_
  rintro _ _ ⟨t, rfl, hKind, hText⟩ ⟨start, us, stop, rfl, hStart, hStop, hTokens⟩
  exact ⟨t, start, us, stop, rfl,
    ⟨hKind, pseudoName_of_isKeyword hWord hText, hStart, hStop⟩, hTokens⟩

end Mode

end SelectorXPath
