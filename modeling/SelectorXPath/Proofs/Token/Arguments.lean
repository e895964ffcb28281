import SelectorXPath.Proofs.Token.Lossless
import SelectorXPath.Proofs.Token.Pieces

/-! Letters, digits, signs and blanks in parentheses. They are cut into numbers, names, plus signs
and blanks, each as long as can be. Only a minus sign may begin no token: where neither a digit nor
a name goes on behind it, and no name ends with it. -/

namespace SelectorXPath

open SelectorXPath.Text

/-- ASCII letters and digits, the signs, and the blanks that selectors know. -/
def isArgumentChar (c : Char) : Bool :=
  isAsciiLetter c || isAsciiDigit c || c = '+' || c = '-' || isBlank c

/-- A minus sign in front of a blank, with a blank in front of it or nothing at all. -/
def HasLoneMinus (t : Text) : Prop :=
  ∃ front c back, t = front ++ '-' :: c :: back ∧ isBlank c = true ∧
    ∀ d ∈ front.getLast?, isBlank d = true

/-- What a token may be next to more of an argument. It is all blanks or has none, it is no minus
sign alone, and no minus sign follows a letter at its end. -/
structure IsWhole (piece rest : Text) : Prop where
  blank : (∀ d ∈ piece, isBlank d = true) ∨ piece ≠ ['-'] ∧ ∀ d ∈ piece, isBlank d = false
  letter : ∀ d ∈ piece.getLast?, isAsciiLetter d = true → rest.head? ≠ some '-'

variable {c : Char} {t piece rest : Text}

/-- A lone minus sign in front of `rest` lies in `rest`: it is not split off a whole piece. -/
theorem IsWhole.hasLoneMinus (h : IsWhole piece rest) (hLone : HasLoneMinus (piece ++ rest)) :
    HasLoneMinus rest := by
  obtain ⟨front, c, back, hText, hBlank, hBefore⟩ := hLone
  obtain ⟨more, rfl, rfl⟩ | ⟨more, rfl, hMore⟩ := List.append_eq_append_iff.mp hText
  · refine ⟨more, c, back, rfl, hBlank, fun d hd => ?_⟩
    obtain ⟨start, rfl⟩ := List.getLast?_eq_some_iff.mp hd
    exact hBefore d (by simp)
  · cases more with
    | nil => exact ⟨[], c, back, hMore.symm, hBlank, by simp⟩
    | cons sign more =>
        obtain ⟨rfl, hBehind⟩ := List.cons.inj hMore
        exfalso
        rcases h.blank with hAll | ⟨hAlone, hNone⟩
        · exact absurd (hAll '-' (by simp)) (by decide)
        · cases more with
          | nil =>
              cases hLast : front.getLast? with
              | none => exact hAlone (by rw [List.getLast?_eq_none_iff.mp hLast]; rfl)
              | some d =>
                  obtain ⟨start, rfl⟩ := List.getLast?_eq_some_iff.mp hLast
                  have hVisible := hNone d (by simp)
                  rw [hBefore d (by simp)] at hVisible
                  cases hVisible
          | cons d more =>
              obtain ⟨rfl, -⟩ := List.cons.inj hBehind
              have hVisible := hNone c (by simp)
              rw [hBlank] at hVisible
              cases hVisible

theorem not_hasLoneMinus_nil : ¬ HasLoneMinus [] := by
  rintro ⟨front, c, back, hText, -⟩
  simp at hText

/-- Characters of one class from the start of a text on, and what is behind them in parentheses. -/
theorem exists_run {f : Char → Bool} (hParenthesis : f ')' = false) (t rest : Text) :
    ∃ run more, t = run ++ more ∧ (∀ d ∈ run, f d = true) ∧
      (∀ d ∈ more.head?, f d = false) ∧ ∀ d ∈ (more ++ ')' :: rest).head?, f d = false := by
  have hStop : ∀ d ∈ (t.dropWhile f).head?, f d = false := by
    intro d hd
    have hFirst := List.head?_dropWhile_not f t
    rw [hd] at hFirst
    simpa using hFirst
  refine ⟨t.takeWhile f, t.dropWhile f, (List.takeWhile_append_dropWhile ..).symm,
    List.all_eq_true.mp List.all_takeWhile, hStop, ?_⟩
  cases hMore : t.dropWhile f with
  | nil => simpa using hParenthesis
  | cons d more => simpa [hMore] using hStop

/-- What goes on with a name is no blank, so that a name ends where a blank begins. -/
theorem not_isBlank_of_isNameChar (h : isNameChar c = true) : isBlank c = false := by
  refine Bool.eq_false_iff.mpr fun hBlank => ?_
  simp only [isBlank, Bool.or_eq_true, decide_eq_true_eq] at hBlank
  rcases hBlank with (((rfl | rfl) | rfl) | rfl) | rfl <;> cases h

theorem isNameChar_of_isAsciiLetter (h : isAsciiLetter c = true) : isNameChar c = true := by
  simp [isNameChar, isNameStart, h]

theorem isNameChar_of_isAsciiDigit (h : isAsciiDigit c = true) : isNameChar c = true := by
  simp [isNameChar, h]

theorem not_isAsciiLetter_of_isAsciiDigit (h : isAsciiDigit c = true) :
    isAsciiLetter c = false := by
  have hDigits : ∀ d ∈ AnPlusB.asciiDigits, (!isAsciiLetter d) = true :=
    List.all_eq_true.mp (by decide)
  simpa using hDigits c (AnPlusB.mem_digits h)

theorem not_isAsciiDigit_of_isAsciiLetter (h : isAsciiLetter c = true) :
    isAsciiDigit c = false := by
  refine Bool.eq_false_iff.mpr fun hDigit => ?_
  rw [not_isAsciiLetter_of_isAsciiDigit hDigit] at h
  cases h

theorem not_isAsciiLetter_of_isBlank (h : isBlank c = true) : isAsciiLetter c = false := by
  refine Bool.eq_false_iff.mpr fun hLetter => ?_
  have hNone := not_isBlank_of_isNameChar (isNameChar_of_isAsciiLetter hLetter)
  rw [h] at hNone
  cases hNone

/-- Of the characters of an argument, letters begin a name. -/
theorem isAsciiLetter_or_eq_dash (hChar : isArgumentChar c = true) (hName : isNameChar c = true) :
    isAsciiDigit c = true ∨ isAsciiLetter c = true ∨ c = '-' := by
  have hNone := not_isBlank_of_isNameChar hName
  simp only [isArgumentChar, hNone, Bool.or_false, Bool.or_eq_true, decide_eq_true_eq] at hChar
  rcases hChar with ((hLetter | hDigit) | rfl) | hDash
  · exact Or.inr (Or.inl hLetter)
  · exact Or.inl hDigit
  · cases hName
  · exact Or.inr (Or.inr hDash)

theorem ne_backslash_of_isArgumentChar (h : isArgumentChar c = true) : c ≠ '\\' := by
  rintro rfl
  cases h

/-- Blanks in a row hold no sign. -/
theorem isWhole_blanks (h : ∀ d ∈ piece, isBlank d = true) : IsWhole piece rest where
  blank := Or.inl h
  letter d hd hLetter := by
    have hNone := not_isAsciiLetter_of_isBlank (h d (List.mem_of_getLast? hd))
    rw [hLetter] at hNone
    cases hNone

/-- A run of name characters is whole if it ends with no letter, or no name goes on behind it. -/
theorem isWhole_of_isNameChar (hAlone : piece ≠ ['-']) (h : ∀ d ∈ piece, isNameChar d = true)
    (hNext : (∀ d ∈ piece.getLast?, isAsciiLetter d = false) ∨
      ∀ d ∈ rest.head?, isNameChar d = false) : IsWhole piece rest where
  blank := Or.inr ⟨hAlone, fun d hd => not_isBlank_of_isNameChar (h d hd)⟩
  letter d hd hLetter hDash := by
    rcases hNext with hLast | hNext
    · rw [hLast d hd] at hLetter
      cases hLetter
    · cases hNext '-' hDash

namespace Scan

/-- An error behind tokens that were taken is the error of the scan. -/
theorem Passes.run_eq_error {s s' : Scan} {ts : List Token} {e : LexError} (h : Passes s ts s')
    (hRun : s'.run = .error e) : s.run = .error e := by
  induction h with
  | done => exact hRun
  | step hStep _ ih =>
      rw [run_of_step_eq_ok hStep, ih hRun]
      rfl

end Scan

namespace Mode

/-- A sign without a digit behind it begins no number. -/
theorem numberLength_dash (h : ∀ d ∈ t.head?, isAsciiDigit d = false) :
    numberLength ('-' :: t) = 0 := by
  have hDigits : digitsLength t = 0 := by
    rw [digitsLength, takeWhile_eq_nil h, List.length_nil]
  rw [numberLength, hDigits]

/-- A letter and characters of names. -/
theorem recognize?_word {run : Text} (hFirst : isAsciiLetter c = true)
    (hRun : ∀ d ∈ run, isNameChar d = true) (hRest : nameLength rest = 0) :
    Mode.argument.recognize? (c :: run ++ rest) = some (.identifier, (c :: run).length) := by
  have hStart : isNameStart c = true := by simp [isNameStart, hFirst]
  have hLength := identifierLength_word hStart hRun hRest
  have hSign : isSignChar c = true := by
    refine isSignChar_iff.mpr ⟨⟨?_, ?_⟩, ?_⟩
    · exact not_isBlank_of_isNameChar (isNameChar_of_isAsciiLetter hFirst)
    · exact not_isAsciiDigit_of_isAsciiLetter hFirst
    · refine ⟨?_, ?_, ?_, ?_⟩ <;> rintro rfl <;> cases hFirst
  rw [List.cons_append, recognize?_eq_selectorSign? (Or.inr rfl) hSign]
  unfold selectorSign?
  split
  case h_15 =>
    rw [hLength]
    simp [nonempty, withLead]
  -- the branches above it begin with a sign, and a sign is no letter
  all_goals
    rename_i hText
    obtain ⟨rfl, -⟩ := List.cons.inj hText
    cases hFirst

/-- A minus sign, a letter or another minus sign, and characters of names. -/
theorem recognize?_dashedWord {run : Text} (hFirst : isAsciiLetter c = true ∨ c = '-')
    (hRun : ∀ d ∈ run, isNameChar d = true) (hRest : nameLength rest = 0) :
    Mode.argument.recognize? ('-' :: c :: run ++ rest) =
      some (.identifier, ('-' :: c :: run).length) := by
  have hDigit : isAsciiDigit c = false := by
    rcases hFirst with hLetter | rfl
    · exact not_isAsciiDigit_of_isAsciiLetter hLetter
    · rfl
  have hNumber : numberLength ('-' :: (c :: run ++ rest)) = 0 :=
    numberLength_dash (by simpa using hDigit)
  have hMore : nameLength (run ++ rest) = run.length := by
    rw [nameLength_append_of_isNameChar rest hRun, hRest, Nat.add_zero]
  have hLength : identifierLength ('-' :: (c :: run ++ rest)) = run.length + 2 := by
    rcases hFirst with hLetter | rfl
    · have hDash : c ≠ '-' := by
        rintro rfl
        cases hLetter
      have hStart : nameStartLength (c :: (run ++ rest)) = 1 := by
        simp [nameStartLength, isNameStart, hLetter]
      have hPlain : plainIdentifierLength (c :: (run ++ rest)) = run.length + 1 := by
        rw [plainIdentifierLength, hStart]
        simp only [List.drop_succ_cons, List.drop_zero, hMore]
        omega
      rw [List.cons_append, identifierLength, hPlain]
      intro t hText
      exact hDash (List.cons.inj hText).1
    · rw [List.cons_append, identifierLength, hMore, Nat.add_comm]
  rw [List.cons_append, recognize?_dash, hNumber, hLength]
  simp [nonempty, withLead]

/-- In front of anything else, a minus sign begins no token. -/
theorem recognize?_dash_eq_none (hName : ∀ d ∈ t.head?, isNameChar d = false)
    (hEscape : ∀ d ∈ t.head?, d ≠ '\\') : Mode.argument.recognize? ('-' :: t) = none := by
  have hNumber : numberLength ('-' :: t) = 0 := by
    refine numberLength_dash fun d hd => ?_
    have hNone := hName d hd
    simp only [isNameChar, Bool.or_eq_false_iff] at hNone
    exact hNone.1.2
  have hStart : nameStartLength t = 0 := by
    cases t with
    | nil => rfl
    | cons d t =>
        have hNone := hName d rfl
        simp only [isNameChar, Bool.or_eq_false_iff] at hNone
        rw [nameStartLength, if_neg (by simp [hNone.1.1]), escapeLength_of_ne t (hEscape d rfl)]
  have hLength : identifierLength ('-' :: t) = 0 := by
    have hPlain : plainIdentifierLength t = 0 := by rw [plainIdentifierLength, hStart]
    rw [identifierLength]
    · rw [hPlain]
    · rintro t rfl
      cases hName '-' rfl
  rw [recognize?_dash, hNumber, hLength]
  rfl

variable {mode : Mode} {kind : Token.Kind} {text text' : Text} {p : List Token → Prop}

/-- In the mode, and with `rest` behind it, a character of the text begins no token. -/
def Stops (mode : Mode) (text rest : Text) : Prop :=
  ∀ offset openedAt below,
    ∃ e, (⟨text ++ rest, offset, ⟨mode, openedAt⟩, below⟩ : Scan).run = .error e

/-- A scan stops at the first character of what is not recognised. -/
theorem stops_of_recognize?_eq_none (h : mode.recognize? (c :: (t ++ rest)) = none) :
    mode.Stops (c :: t) rest := by
  intro offset openedAt below
  refine ⟨⟨offset, .unexpected c⟩, Scan.run_of_step_eq_error ?_⟩
  simp [Scan.step, Scan.take, h]

/-- Nothing that is read in front helps. -/
theorem Reads.stops (h : mode.Reads text (text' ++ rest) p) (h' : mode.Stops text' rest) :
    mode.Stops (text ++ text') rest := by
  intro offset openedAt below
  obtain ⟨ts, middle, hPasses, -⟩ := h offset openedAt below
  obtain ⟨e, hRun⟩ := h' middle openedAt below
  refine ⟨e, ?_⟩
  rw [List.append_assoc]
  exact hPasses.run_eq_error hRun

/-- In parentheses, the text begins with a token that is as long as can be. -/
def BeginsWhole (text rest : Text) : Prop :=
  ∃ piece more kind, text = piece ++ more ∧ piece ≠ [] ∧ IsWhole piece more ∧
    kind ∈ keptKinds ∧ kind.isPositional = true ∧
    Mode.argument.recognize? (piece ++ (more ++ ')' :: rest)) = some (kind, piece.length)

/-- Blanks are taken together. -/
theorem beginsWhole_of_isBlank (h : isBlank c = true) (t rest : Text) :
    BeginsWhole (c :: t) rest := by
  obtain ⟨run, more, rfl, hRun, -, hEnd⟩ := exists_run (f := isBlank) rfl t rest
  have hLength : blankLength (more ++ ')' :: rest) = 0 := by
    rw [blankLength, takeWhile_eq_nil hEnd, List.length_nil]
  exact ⟨c :: run, more, .whitespace, rfl, by simp,
    isWhole_blanks (List.forall_mem_cons.mpr ⟨h, hRun⟩), by simp [keptKinds], rfl,
    recognize?_blanks (Or.inr rfl) h hRun hLength⟩

/-- Digits are whole with a sign in front of them, since no letter is at their end. -/
theorem isWhole_digits {lead run more : Text} (hAlone : lead ++ run ≠ ['-'])
    (hLead : ∀ d ∈ lead, isNameChar d = true ∧ isAsciiLetter d = false)
    (hRun : ∀ d ∈ run, isAsciiDigit d = true) : IsWhole (lead ++ run) more := by
  have hBoth : ∀ d ∈ lead ++ run, isNameChar d = true ∧ isAsciiLetter d = false := by
    intro d hd
    rcases List.mem_append.mp hd with hd | hd
    · exact hLead d hd
    · exact ⟨isNameChar_of_isAsciiDigit (hRun d hd), not_isAsciiLetter_of_isAsciiDigit (hRun d hd)⟩
  exact isWhole_of_isNameChar hAlone (fun d hd => (hBoth d hd).1)
    (Or.inl fun d hd => (hBoth d (List.mem_of_getLast? hd)).2)

/-- A number is taken with all of its digits. -/
theorem beginsWhole_of_isAsciiDigit (h : isAsciiDigit c = true) (t rest : Text) :
    BeginsWhole (c :: t) rest := by
  obtain ⟨run, more, rfl, hRun, -, hEnd⟩ := exists_run (f := isAsciiDigit) rfl t rest
  have hAlone : [] ++ c :: run ≠ ['-'] := by
    rintro hText
    obtain ⟨rfl, -⟩ := List.cons.inj hText
    cases h
  exact ⟨c :: run, more, .number, rfl, by simp,
    isWhole_digits hAlone (by simp) (List.forall_mem_cons.mpr ⟨h, hRun⟩), by simp [keptKinds], rfl,
    recognize?_digits h hRun hEnd⟩

/-- A plus sign is a token by itself. -/
theorem beginsWhole_plus (t rest : Text) : BeginsWhole ('+' :: t) rest := by
  have hBlank : ∀ d ∈ ['+'], isBlank d = false := List.forall_mem_singleton.mpr rfl
  refine ⟨['+'], t, .combinator, rfl, by simp, ⟨Or.inr ⟨by simp, hBlank⟩, ?_⟩, by simp [keptKinds],
    rfl, ?_⟩
  · rintro d hd hLetter
    obtain rfl : d = '+' := by simpa using hd.symm
    cases hLetter
  · rw [List.singleton_append, recognize?_eq_selectorSign? (Or.inr rfl) (by decide)]
    rfl

/-- Behind characters of a name stands nothing that could continue it. -/
theorem nameLength_parenthesis {more : Text} (hChars : ∀ d ∈ more, isArgumentChar d = true)
    (hMore : ∀ d ∈ more.head?, isNameChar d = false) (rest : Text) :
    nameLength (more ++ ')' :: rest) = 0 := by
  cases more with
  | nil => exact nameLength_cons_eq_zero (by decide) (by decide)
  | cons d more =>
      exact nameLength_cons_eq_zero (hMore d rfl)
        (ne_backslash_of_isArgumentChar (hChars d (by simp)))

/-- A letter begins an identifier, which ends in front of a blank or a plus sign. -/
theorem beginsWhole_of_isAsciiLetter (h : isAsciiLetter c = true)
    (hChars : ∀ d ∈ t, isArgumentChar d = true) (rest : Text) : BeginsWhole (c :: t) rest := by
  obtain ⟨run, more, rfl, hRun, hMore, -⟩ := exists_run (f := isNameChar) rfl t rest
  have hLength := nameLength_parenthesis (fun d hd => hChars d (by simp [hd])) hMore rest
  have hAlone : c :: run ≠ ['-'] := by
    rintro hText
    obtain ⟨rfl, -⟩ := List.cons.inj hText
    cases h
  exact ⟨c :: run, more, .identifier, rfl, by simp,
    isWhole_of_isNameChar hAlone
      (List.forall_mem_cons.mpr ⟨isNameChar_of_isAsciiLetter h, hRun⟩) (Or.inr hMore),
    by simp [keptKinds], rfl, recognize?_word h hRun hLength⟩

/-- A minus sign with no blank behind it belongs to a number or to an identifier. -/
theorem beginsWhole_dash (h : isNameChar c = true) (hFirst : isArgumentChar c = true)
    (hChars : ∀ d ∈ t, isArgumentChar d = true) (rest : Text) :
    BeginsWhole ('-' :: c :: t) rest := by
  rcases isAsciiLetter_or_eq_dash hFirst h with hDigit | hLetter
  · obtain ⟨run, more, rfl, hRun, -, hEnd⟩ := exists_run (f := isAsciiDigit) rfl t rest
    have hWhole : IsWhole (['-'] ++ c :: run) more :=
      isWhole_digits (by simp) (List.forall_mem_singleton.mpr ⟨rfl, rfl⟩)
        (List.forall_mem_cons.mpr ⟨hDigit, hRun⟩)
    exact ⟨'-' :: c :: run, more, .number, rfl, by simp, hWhole, by simp [keptKinds], rfl,
      recognize?_negative hDigit hRun hEnd⟩
  · obtain ⟨run, more, rfl, hRun, hMore, -⟩ := exists_run (f := isNameChar) rfl t rest
    have hLength := nameLength_parenthesis (fun d hd => hChars d (by simp [hd])) hMore rest
    have hNames : ∀ d ∈ '-' :: c :: run, isNameChar d = true :=
      List.forall_mem_cons.mpr ⟨rfl, List.forall_mem_cons.mpr ⟨h, hRun⟩⟩
    exact ⟨'-' :: c :: run, more, .identifier, rfl, by simp,
      isWhole_of_isNameChar (by simp) hNames (Or.inr hMore), by simp [keptKinds], rfl,
      recognize?_dashedWord hLetter hRun hLength⟩

/-- An argument begins with a token that is as long as can be, or with a minus sign that begins
none. -/
theorem beginsWhole_or_dash (hChars : ∀ d ∈ c :: t, isArgumentChar d = true) (rest : Text) :
    BeginsWhole (c :: t) rest ∨ c = '-' ∧ (∀ d ∈ t.head?, isNameChar d = false) ∧
      Mode.argument.recognize? (c :: (t ++ ')' :: rest)) = none := by
  obtain ⟨hFirst, hMore⟩ := List.forall_mem_cons.mp hChars
  have hCases := hFirst
  simp only [isArgumentChar, Bool.or_eq_true, decide_eq_true_eq] at hCases
  rcases hCases with (((hLetter | hDigit) | rfl) | rfl) | hBlank
  · exact Or.inl (beginsWhole_of_isAsciiLetter hLetter hMore rest)
  · exact Or.inl (beginsWhole_of_isAsciiDigit hDigit t rest)
  · exact Or.inl (beginsWhole_plus t rest)
  · by_cases hName : ∀ d ∈ t.head?, isNameChar d = false
    · refine Or.inr ⟨rfl, hName, recognize?_dash_eq_none ?_ ?_⟩
      · cases t with
        | nil => simp; decide
        | cons d t => simpa using hName
      · cases t with
        | nil => simp
        | cons d t => simpa using ne_backslash_of_isArgumentChar (hMore d (by simp))
    · cases t with
      | nil => simp at hName
      | cons d t =>
          obtain ⟨hNext, hMore⟩ := List.forall_mem_cons.mp hMore
          exact Or.inl (beginsWhole_dash (by simpa using hName) hNext hMore rest)
  · exact Or.inl (beginsWhole_of_isBlank hBlank t rest)

/-- An argument is cut into the tokens of positions, and then no minus sign stands alone in it. Or
there is one that begins no token and stands behind no letter. -/
theorem reads_or_stops : ∀ (t : Text), (∀ d ∈ t, isArgumentChar d = true) → ∀ rest : Text,
    (Mode.argument.Reads t (')' :: rest)
        (fun ts => Joins t ts ∧ ∀ token ∈ ts, token.kind.isPositional = true) ∧
      ¬ HasLoneMinus t) ∨
    Mode.argument.Stops t (')' :: rest) ∧ ∃ front back, t = front ++ '-' :: back ∧
      (∀ d ∈ front.getLast?, isAsciiLetter d = false) ∧
      ∀ d ∈ back.head?, isNameChar d = false
  | [], _, _ => Or.inl ⟨Reads.nil ⟨rfl, by simp⟩, not_hasLoneMinus_nil⟩
  | c :: t, hChars, rest => by
      rcases beginsWhole_or_dash hChars rest with
        ⟨piece, more, kind, hText, hSome, hWhole, hKept, hPositional, hKind⟩ | ⟨rfl, hName, hNone⟩
      · have hLess : more.length < (c :: t).length := by
          have := List.length_pos_of_ne_nil hSome
          rw [hText, List.length_append]
          omega
        obtain ⟨d, piece, rfl⟩ := List.exists_cons_of_ne_nil hSome
        have hFirst : Mode.argument.Reads (d :: piece) (more ++ ')' :: rest)
            (fun ts => Joins (d :: piece) ts ∧ ∀ token ∈ ts, token.kind.isPositional = true) :=
          Reads.token (keeps_of_mem (Or.inl (Or.inr rfl)) hKept) hKind fun offset =>
            ⟨by simp [Joins], by simpa using hPositional⟩
        rw [hText] at hChars ⊢
        rcases reads_or_stops more (fun d hd => hChars d (List.mem_append_right _ hd)) rest with
          ⟨hReads, hLone⟩ | ⟨hStops, front, back, rfl, hBefore, hBehind⟩
        · refine Or.inl ⟨hFirst.append hReads fun ts us hTs hUs => ?_, ?_⟩
          · exact ⟨hTs.1.append hUs.1, List.forall_mem_append.mpr ⟨hTs.2, hUs.2⟩⟩
          · exact fun h => hLone (hWhole.hasLoneMinus h)
        · refine Or.inr ⟨hFirst.stops hStops, d :: piece ++ front, back, by simp, ?_, hBehind⟩
          intro last hLast
          cases front with
          | nil =>
              rw [List.append_nil] at hLast
              exact Bool.eq_false_iff.mpr fun hLetter => hWhole.letter last hLast hLetter rfl
          | cons f front =>
              rw [List.getLast?_append_cons] at hLast
              exact hBefore last hLast
      · exact Or.inr ⟨stops_of_recognize?_eq_none hNone, [], t, rfl, by simp, hName⟩
termination_by t => t.length
decreasing_by exact hLess

end Mode

end SelectorXPath
