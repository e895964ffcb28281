import SelectorXPath.Proofs.Selector.Pieces
import SelectorXPath.Proofs.Selector.WellFormed

/-! The image of the parser. Every well-formed selector list has a spelling, and what the parser
makes of the spelling agrees with the list. With the converse, that only well-formed lists are
read, this says exactly which lists come out of the parser under a limit. -/

namespace SelectorXPath

open SelectorXPath.Text

/-- The sign of a combinator, which is a space where there is none. -/
def Combinator.spelling : Combinator → Text
  | .descendant => [' ']
  | .child => ['>']
  | .adjacent => ['+']
  | .sibling => ['~']

def functionalSpelling (functional : FunctionalClass) (argument : Text) : Text :=
  ':' :: functional.name ++ '(' :: (argument ++ [')'])

mutual

def Simple.spelling : Simple → Text
  | .type name qualifier => qualifier.spelling ++ localSpelling (some name)
  | .universal qualifier => qualifier.spelling ++ localSpelling none
  | .class name => '.' :: nameSpelling name
  | .id name => '#' :: nameSpelling name
  | .attribute test => test.spelling
  | .pseudo pseudoClass => ':' :: pseudoClass.name
  | .nth counting positions => functionalSpelling (.nth counting) positions.spelling
  | .not list => functionalSpelling .not (listSpelling list)
  | .has list => functionalSpelling .has (listSpelling list)
  | .contains text => functionalSpelling .contains (quotedSpelling text)

def partsSpelling : List Simple → Text
  | [] => []
  | part :: parts => part.spelling ++ partsSpelling parts

def Compound.spelling : Compound → Text
  | ⟨_, parts⟩ => partsSpelling parts

def Complex.spelling : Complex → Text
  | .single compound => compound.spelling
  | .joined left combinator right => left.spelling ++ (combinator.spelling ++ right.spelling)

def listSpelling : List Complex → Text
  | [] => []
  | selector :: list => selector.spelling ++ moreSpelling list

/-- The selectors behind the first, each behind a comma. -/
def moreSpelling : List Complex → Text
  | [] => []
  | selector :: list => ',' :: (selector.spelling ++ moreSpelling list)

end

/-- The prefix of a name that is well formed is not empty, so that it can be spelled. -/
theorem wellFormed_named {qualifier : Qualifier} (h : qualifier.isWellFormed = true) :
    ∀ key, qualifier = .named key → key ≠ [] := by
  rintro key rfl
  simpa [Qualifier.isWellFormed] using h

/-- The spelling of a name begins with a backslash, whatever the name is. -/
theorem head_nameSpelling {name : Text} (h : name ≠ []) : ∃ t, nameSpelling name = '\\' :: t := by
  obtain ⟨c, name, rfl⟩ := List.exists_cons_of_ne_nil h
  obtain ⟨t, hFirst⟩ := escaped_eq_cons c
  exact ⟨t ++ nameSpelling name, by rw [nameSpelling, List.flatMap_cons, hFirst]; rfl⟩

/-- How the name of an element begins. -/
theorem blankLength_qualified {qualifier : Qualifier} {name : Option Text} (rest : Text)
    (hQualifier : ∀ key, qualifier = .named key → key ≠ [])
    (hName : ∀ text, name = some text → text ≠ []) :
    blankLength (qualifier.spelling ++ localSpelling name ++ rest) = 0 := by
  cases qualifier with
  | absent =>
      cases name with
      | none => rfl
      | some name =>
          obtain ⟨t, h⟩ := head_nameSpelling (hName name rfl)
          simp [Qualifier.spelling, localSpelling, h, blankLength, isBlank]
  | any => rfl
  | noNamespace => rfl
  | named key =>
      obtain ⟨t, h⟩ := head_nameSpelling (hQualifier key rfl)
      simp [Qualifier.spelling, h, blankLength, isBlank]

/-- How a part begins that is no name. -/
theorem head_spelling {simple : Simple} (h : simple.isName = false) : ∃ c t,
    simple.spelling = c :: t ∧ isNameChar c = false ∧ c ≠ '\\' ∧ isBlank c = false := by
  cases simple with
  | type => cases h
  | universal => cases h
  | _ => exact ⟨_, _, rfl, by decide, by decide, by decide⟩

theorem blankLength_cons {c : Char} {t : Text} (h : isBlank c = false) :
    blankLength (c :: t) = 0 := by
  simp [blankLength, h]

/-- No part that follows another goes on with a name in front of it. -/
theorem nameLength_partsSpelling {parts : List Simple} {rest : Text}
    (h : parts.any Simple.isName = false) (hRest : nameLength rest = 0) :
    nameLength (partsSpelling parts ++ rest) = 0 := by
  cases parts with
  | nil => exact hRest
  | cons part parts =>
      rw [List.any_cons, Bool.or_eq_false_iff] at h
      obtain ⟨c, t, hFirst, hName, hEscape, -⟩ := head_spelling h.1
      rw [partsSpelling, hFirst]
      exact nameLength_cons_eq_zero hName hEscape

/-- The spelling of a compound does not begin with white space. -/
theorem blankLength_spelling {compound : Compound} (rest : Text)
    (h : compound.isWellFormed = true) : blankLength (compound.spelling ++ rest) = 0 := by
  obtain ⟨offset, _ | ⟨part, parts⟩⟩ := compound
  · cases h
  · have hPart : part.isWellFormed = true := by
      simp [Compound.isWellFormed, partsWellFormed] at h
      exact h.2.1
    rw [Compound.spelling, partsSpelling, List.append_assoc]
    by_cases hName : part.isName = true
    · cases part with
      | type name qualifier =>
          simp [Simple.isWellFormed] at hPart
          exact blankLength_qualified _ (wellFormed_named hPart.2) (by simpa using hPart.1)
      | universal qualifier =>
          exact blankLength_qualified _ (wellFormed_named hPart) (by simp)
      | _ => cases hName
    · obtain ⟨c, t, hFirst, -, -, hBlank⟩ := head_spelling (Bool.eq_false_iff.mpr hName)
      rw [hFirst]
      exact blankLength_cons hBlank

/-- A combinator is read back, the space included if no other blank follows. -/
theorem reads_combinator {mode : Mode} {rest : Text} (combinator : Combinator)
    (hMode : mode.HoldsSelectors) (hRest : blankLength rest = 0) :
    mode.Reads combinator.spelling rest
      fun ts => Grammar.WritesCombinator ts combinator := by
  have hSpace : mode.Keeps .whitespace :=
    Mode.keeps_of_mem (Or.inl hMode) (by simp [Mode.keptKinds])
  have hSign : mode.Keeps .combinator :=
    Mode.keeps_of_mem (Or.inl hMode) (by simp [Mode.keptKinds])
  have hBlank := Grammar.Blank.nil
  cases combinator with
  | descendant =>
      exact Mode.Reads.token hSpace (Mode.recognize?_blank hMode hRest)
        fun offset => .blank (by simp [Grammar.Blank]) (by simp)
  | _ =>
      refine Mode.Reads.token hSign ?_ fun offset => .sign hBlank rfl rfl hBlank
      rw [Mode.recognize?_eq_selectorSign? hMode (by decide)]
      rfl

theorem nameLength_moreSpelling (list : List Complex) {rest : Text} (hRest : nameLength rest = 0) :
    nameLength (moreSpelling list ++ rest) = 0 := by
  cases list with
  | nil => exact hRest
  | cons selector list => exact nameLength_cons_eq_zero (by decide) (by decide)

/-- A functional pseudo-class whose argument is read as a group is read as a part. -/
theorem reads_group {mode : Mode} {rest : Text} {list : SelectorList}
    (functional : FunctionalClass) (hMode : mode.HoldsSelectors)
    (h : Mode.argument.Reads (listSpelling list) (')' :: rest)
      fun ts => ∃ list', listsAgree list' list = true ∧ Grammar.WritesList ts list') :
    mode.Reads (functionalSpelling functional (listSpelling list)) rest
      fun ts => ∃ t start us stop list', ts = t :: start :: (us ++ [stop]) ∧
        Grammar.Encloses t start stop functional ∧ listsAgree list' list = true ∧
        Grammar.WritesList us list' := by
  refine (Mode.reads_functional functional hMode h).mono ?_
  rintro _ ⟨t, start, us, stop, rfl, hEnclosed, list', hAgree, hWritten⟩
  exact ⟨t, start, us, stop, list', rfl, hEnclosed, hAgree, hWritten⟩

/-- A compound that begins with the name of an element is read if its other parts are. -/
theorem reads_named {mode : Mode} {rest : Text} {parts : List Simple} {offset : Nat}
    (name : Qualifier × Option Text) (hMode : mode.HoldsSelectors)
    (hQualifier : ∀ key, name.1 = .named key → key ≠ [])
    (hLocal : ∀ text, name.2 = some text → text ≠ [])
    (hNext : nameLength (partsSpelling parts ++ rest) = 0)
    (hMore : mode.Reads (partsSpelling parts) rest fun ts => ∃ parts',
      partsAgree parts' parts = true ∧ Grammar.WritesParts Grammar.WritesList ts parts') :
    mode.Reads (name.1.spelling ++ localSpelling name.2 ++ partsSpelling parts) rest
      fun ts => ∃ compound',
        compound'.agrees ⟨offset, Parser.Simple.ofName name :: parts⟩ = true ∧
        Grammar.WritesCompound Grammar.WritesList ts compound' := by
  have hEvery : mode = .attribute → name.2 ≠ none := by
    rintro rfl
    cases hMode <;> contradiction
  refine (Mode.reads_qualifiedName name (Or.inl hMode) hQualifier hLocal hNext
    hEvery).append hMore ?_
  rintro ts us hWritten ⟨parts', hAgrees, hRest⟩
  refine ⟨_, ?_, .named hWritten hRest⟩
  obtain ⟨qualifier, _ | text⟩ := name <;>
    simp [Compound.agrees, partsAgree, Parser.Simple.ofName, Simple.agrees, hAgrees]

mutual

/-- What is read from the spelling of a part agrees with it. -/
theorem Simple.reads : ∀ (simple : Simple) (mode : Mode) (rest : Text), mode.HoldsSelectors →
    simple.isWellFormed = true → simple.isName = false → nameLength rest = 0 →
    mode.Reads simple.spelling rest fun ts =>
      ∃ simple', simple'.agrees simple = true ∧ Grammar.WritesPart Grammar.WritesList ts simple'
  | .class name, mode, rest, hMode, hForm, _, hRest => by
      have hName : name ≠ [] := by simpa [Simple.isWellFormed] using hForm
      refine (Mode.reads_signedName hMode (Or.inl ⟨rfl, rfl⟩) hName hRest).mono ?_
      rintro _ ⟨t, rfl, hKind, hText⟩
      refine ⟨_, ?_, .className hKind⟩
      simp [hText, unescape_nameSpelling, Simple.agrees]
  | .id name, mode, rest, hMode, hForm, _, hRest => by
      have hName : name ≠ [] := by simpa [Simple.isWellFormed] using hForm
      refine (Mode.reads_signedName hMode (Or.inr ⟨rfl, rfl⟩) hName hRest).mono ?_
      rintro _ ⟨t, rfl, hKind, hText⟩
      refine ⟨_, ?_, .idName hKind⟩
      simp [hText, unescape_nameSpelling, Simple.agrees]
  | .attribute test, mode, rest, hMode, hForm, _, _ => by
      have hTest : test.name ≠ [] ∧ test.qualifier.isWellFormed = true := by
        simpa [Simple.isWellFormed] using hForm
      refine (Mode.reads_attribute test hMode (wellFormed_named hTest.2) hTest.1).mono ?_
      intro ts hWritten
      exact ⟨.attribute test, by simp [Simple.agrees], .attributeTest hWritten⟩
  | .pseudo pseudoClass, mode, rest, hMode, _, _, hRest => by
      have hWord := Mode.isKeyword_pseudoClass pseudoClass
      refine (Mode.reads_pseudoClass hMode hWord hRest).mono ?_
      rintro _ ⟨t, rfl, hKind, hText⟩
      exact ⟨.pseudo pseudoClass, by simp [Simple.agrees],
        .pseudo hKind (Mode.pseudoName_of_isKeyword hWord hText)⟩
  | .nth counting positions, mode, rest, hMode, hForm, _, _ => by
      have hRange : AnPlusB.inRange positions.a = true ∧ AnPlusB.inRange positions.b = true := by
        simpa [Simple.isWellFormed] using hForm
      refine (Mode.reads_functional (.nth counting) hMode
        (Mode.reads_positions positions)).mono ?_
      rintro _ ⟨t, start, us, stop, rfl, hEnclosed, hText⟩
      have hRead : Grammar.WritesPositions us positions := by
        rw [Grammar.WritesPositions, hText]
        exact AnPlusB.read?_spelling hRange.1 hRange.2
      exact ⟨.nth counting positions, by simp [Simple.agrees], .nth hEnclosed hRead⟩
  | .not list, mode, rest, hMode, hForm, _, _ => by
      refine (reads_group .not hMode (list_reads list .argument (')' :: rest) (Or.inr rfl) hForm
        (nameLength_cons_eq_zero (by decide) (by decide)))).mono ?_
      rintro _ ⟨t, start, us, stop, list', rfl, hEnclosed, hAgree, hWritten⟩
      exact ⟨.not list', by simpa [Simple.agrees], .not hEnclosed hWritten⟩
  | .has list, mode, rest, hMode, hForm, _, _ => by
      refine (reads_group .has hMode (list_reads list .argument (')' :: rest) (Or.inr rfl) hForm
        (nameLength_cons_eq_zero (by decide) (by decide)))).mono ?_
      rintro _ ⟨t, start, us, stop, list', rfl, hEnclosed, hAgree, hWritten⟩
      exact ⟨.has list', by simpa [Simple.agrees], .has hEnclosed hWritten⟩
  | .contains text, mode, rest, hMode, _, _, _ => by
      refine (Mode.reads_functional .contains hMode
        (Mode.reads_quoted text (Or.inr rfl))).mono ?_
      rintro _ ⟨t, start, us, stop, rfl, hEnclosed, hValue⟩
      have hBlank := Grammar.Blank.nil
      have hWritten := Grammar.WritesText.intro hBlank hValue hBlank
      rw [List.nil_append, List.append_nil] at hWritten
      exact ⟨.contains text, by simp [Simple.agrees], .contains hEnclosed hWritten⟩

/-- The parts of a compound are read back one after the other. Offsets may differ from the ones they
had. -/
theorem parts_reads : ∀ (parts : List Simple) (mode : Mode) (rest : Text), mode.HoldsSelectors →
    partsWellFormed parts = true → parts.any Simple.isName = false → nameLength rest = 0 →
    mode.Reads (partsSpelling parts) rest fun ts =>
      ∃ parts', partsAgree parts' parts = true ∧ Grammar.WritesParts Grammar.WritesList ts parts'
  | [], mode, rest, _, _, _, _ => Mode.Reads.nil ⟨[], by simp [partsAgree], .nil⟩
  | part :: parts, mode, rest, hMode, hForm, hNames, hRest => by
      rw [partsWellFormed, Bool.and_eq_true] at hForm
      rw [List.any_cons, Bool.or_eq_false_iff] at hNames
      have hNext := nameLength_partsSpelling hNames.2 hRest
      refine (part.reads mode _ hMode hForm.1 hNames.1 hNext).append
        (parts_reads parts mode rest hMode hForm.2 hNames.2 hRest) ?_
      rintro ts us ⟨part', hPart, hWritten⟩ ⟨parts', hParts, hMore⟩
      exact ⟨part' :: parts', by simp [partsAgree, hPart, hParts], .cons hWritten hMore⟩

/-- A compound that is well formed is read back, up to its offset. -/
theorem Compound.reads : ∀ (compound : Compound) (mode : Mode) (rest : Text),
    mode.HoldsSelectors → compound.isWellFormed = true → nameLength rest = 0 →
    mode.Reads compound.spelling rest fun ts =>
      ∃ compound', compound'.agrees compound = true ∧
        Grammar.WritesCompound Grammar.WritesList ts compound'
  | ⟨offset, []⟩, _, _, _, hForm, _ => by cases hForm
  | ⟨offset, part :: parts⟩, mode, rest, hMode, hForm, hRest => by
      simp only [Compound.isWellFormed, partsWellFormed, List.isEmpty_cons, List.tail_cons,
        Bool.not_false, Bool.true_and, Bool.and_eq_true, Bool.not_eq_true'] at hForm
      obtain ⟨hNames, hPart, hForms⟩ := hForm
      have hNext := nameLength_partsSpelling hNames hRest
      have hMore := parts_reads parts mode rest hMode hForms hNames hRest
      by_cases hFirst : part.isName = true
      · cases part with
        | type name qualifier =>
            have hBoth : name ≠ [] ∧ qualifier.isWellFormed = true := by
              simpa [Simple.isWellFormed] using hPart
            exact reads_named (qualifier, some name) hMode (wellFormed_named hBoth.2)
              (by simpa using hBoth.1) hNext hMore
        | universal qualifier =>
            exact reads_named (qualifier, none) hMode (wellFormed_named hPart) (by simp) hNext hMore
        | _ => cases hFirst
      · refine (part.reads mode _ hMode hPart (Bool.eq_false_iff.mpr hFirst) hNext).append hMore ?_
        rintro ts us ⟨part', hAgree, hWritten⟩ ⟨parts', hAgrees, hRest⟩
        refine ⟨⟨Grammar.offsetOf (ts ++ us), part' :: parts'⟩, ?_,
          .unnamed (.cons hWritten hRest) (by simp)⟩
        simp [Compound.agrees, partsAgree, hAgree, hAgrees]

/-- A chain is read back from the left to the right. -/
theorem Complex.reads : ∀ (complex : Complex) (mode : Mode) (rest : Text),
    mode.HoldsSelectors → complex.isWellFormed = true → nameLength rest = 0 →
    mode.Reads complex.spelling rest fun ts =>
      ∃ complex', complex'.agrees complex = true ∧
        Grammar.WritesComplex Grammar.WritesList ts complex'
  | .single compound, mode, rest, hMode, hForm, hRest => by
      refine (compound.reads mode rest hMode hForm hRest).mono ?_
      rintro ts ⟨compound', hAgree, hWritten⟩
      exact ⟨.single compound', by simpa [Complex.agrees], .single hWritten⟩
  | .joined left combinator right, mode, rest, hMode, hForm, hRest => by
      rw [Complex.isWellFormed, Bool.and_eq_true] at hForm
      have hRight := right.reads mode rest hMode hForm.2 hRest
      have hBoth :=
        (reads_combinator combinator hMode (blankLength_spelling rest hForm.2)).both hRight
      have hSign : nameLength (combinator.spelling ++ right.spelling ++ rest) = 0 := by
        cases combinator <;> exact nameLength_cons_eq_zero (by decide) (by decide)
      refine (left.reads mode _ hMode hForm.1 hSign).append hBoth ?_
      rintro ls _ ⟨left', hLeft, hLs⟩ ⟨ms, rs, rfl, hMs, right', hAgree, hRs⟩
      exact ⟨.joined left' combinator right', by simp [Complex.agrees, hLeft, hAgree],
        .joined hLs hMs hRs⟩

/-- The selectors behind the first are read back with the commas in front of them. -/
theorem more_reads : ∀ (list : List Complex) (mode : Mode) (rest : Text),
    mode.HoldsSelectors → allWellFormed list = true → nameLength rest = 0 →
    mode.Reads (moreSpelling list) rest fun ts =>
      ∃ list', listsAgree list' list = true ∧ ∀ us selector,
        Grammar.WritesComplex Grammar.WritesList us selector →
        Grammar.WritesAlternatives Grammar.WritesList (us ++ ts) (selector :: list')
  | [], mode, rest, _, _, _ => by
      refine Mode.Reads.nil ⟨[], by simp [listsAgree], fun us selector hWritten => ?_⟩
      have hBlank := Grammar.Blank.nil
      exact .one hBlank hWritten hBlank
  | selector :: list, mode, rest, hMode, hForm, hRest => by
      rw [allWellFormed, Bool.and_eq_true] at hForm
      have hComma : mode.Reads [','] (selector.spelling ++ moreSpelling list ++ rest)
          (Mode.IsOne .separator [',']) := by
        refine Mode.Reads.token (Mode.keeps_of_mem (Or.inl hMode) (by simp [Mode.keptKinds])) ?_
          fun offset => ⟨_, rfl, rfl, rfl⟩
        rw [Mode.recognize?_eq_selectorSign? hMode (by decide)]
        rfl
      have hSelector := selector.reads mode (moreSpelling list ++ rest) hMode hForm.1
        (nameLength_moreSpelling list hRest)
      have hBoth := hSelector.both (more_reads list mode rest hMode hForm.2 hRest)
      refine hComma.append hBoth ?_
      rintro _ _ ⟨comma, rfl, hKind, -⟩ ⟨xs, ys, rfl, ⟨selector', hAgree, hXs⟩, list', hAgrees, hYs⟩
      refine ⟨selector' :: list', by simp [listsAgree, hAgree, hAgrees],
        fun us first hWritten => ?_⟩
      have hBlank := Grammar.Blank.nil
      have hAll := Grammar.WritesAlternatives.more hBlank hWritten hBlank hKind (hYs xs _ hXs)
      rw [List.nil_append, List.append_nil] at hAll
      exact hAll

/-- A list is read back, in the outermost mode and between parentheses alike. -/
theorem list_reads : ∀ (list : List Complex) (mode : Mode) (rest : Text),
    mode.HoldsSelectors → listWellFormed list = true → nameLength rest = 0 →
    mode.Reads (listSpelling list) rest fun ts =>
      ∃ list', listsAgree list' list = true ∧ Grammar.WritesList ts list'
  | [], _, _, _, hForm, _ => by cases hForm
  | selector :: list, mode, rest, hMode, hForm, hRest => by
      have hForms : selector.isWellFormed = true ∧ allWellFormed list = true := by
        simpa [listWellFormed, allWellFormed] using hForm
      refine (selector.reads mode (moreSpelling list ++ rest) hMode hForms.1
        (nameLength_moreSpelling list hRest)).append
          (more_reads list mode rest hMode hForms.2 hRest) ?_
      rintro us ts ⟨selector', hAgree, hWritten⟩ ⟨list', hAgrees, hMore⟩
      exact ⟨selector' :: list', by simp [listsAgree, hAgree, hAgrees],
        .intro (hMore us selector' hWritten)⟩

end

namespace Selector

/-- For every limit, the lists that are read from some source, up to the offsets of compounds, are
the well-formed lists in which groups nest at most so deep. -/
theorem parse_image_iff (limit : Nat) (list : SelectorList) :
    (∃ source list', parse source limit = .ok list' ∧ listsAgree list' list = true) ↔
      listWellFormed list = true ∧ listNesting list ≤ limit := by
  constructor
  · rintro ⟨source, list', hParse, hAgree⟩
    obtain ⟨-, -, -, hNesting⟩ := parse_eq_ok_iff.mp hParse
    have hForm := listWellFormed_of_parse hParse
    exact ⟨listWellFormed_eq_of_agree hAgree ▸ hForm, listNesting_eq_of_agree hAgree ▸ hNesting⟩
  · rintro ⟨hForm, hNesting⟩
    have hReads := list_reads list .selector [] (Or.inl rfl) hForm (by rw [nameLength])
    obtain ⟨ts, offset, hTokens, list', hAgree, hWritten⟩ := tokenize_of_reads hReads
    refine ⟨listSpelling list, list', parse_eq_ok_iff.mpr ⟨_, hTokens, ?_, ?_⟩, hAgree⟩
    · rw [TokenReader.visible_append_eof]
      exact hWritten
    · rw [listNesting_eq_of_agree hAgree]
      exact hNesting

end Selector

end SelectorXPath
