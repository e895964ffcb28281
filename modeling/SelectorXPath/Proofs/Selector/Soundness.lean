import SelectorXPath.Proofs.Selector.Completeness

/-! What the parser accepts, the grammar derives: the tokens that a parser has read are those of a
derivation of what it returned. Nothing is said about failures. -/

namespace SelectorXPath

namespace Outcome

/-- A success that was changed has been one before. -/
theorem map_eq_ok_iff {α β : Type} {f : α → β} {o : Outcome α} {value : β} {rest : List Token} :
    o.map f = .ok value rest ↔ ∃ inner, o = .ok inner rest ∧ f inner = value := by
  cases o with
  | ok inner after =>
      simp only [map, ok.injEq]
      constructor
      · rintro ⟨rfl, rfl⟩
        exact ⟨inner, ⟨rfl, rfl⟩, rfl⟩
      · rintro ⟨_, ⟨rfl, rfl⟩, rfl⟩
        exact ⟨rfl, rfl⟩
  | error fault groups after => simp [map]

/-- Two steps succeed if the first does and then the second. -/
theorem andThen_eq_ok_iff {α β : Type} {o : Outcome α} {next : α → List Token → Outcome β}
    {value : β} {rest : List Token} :
    o.andThen next = .ok value rest ↔
      ∃ inner after, o = .ok inner after ∧ next inner after = .ok value rest := by
  cases o with
  | ok inner after =>
      simp only [andThen, ok.injEq]
      constructor
      · intro h
        exact ⟨inner, after, ⟨rfl, rfl⟩, h⟩
      · rintro ⟨_, _, ⟨rfl, rfl⟩, h⟩
        exact h
  | error fault groups after => simp [andThen]

theorem inGroup_eq_ok_iff {α : Type} {o : Outcome α} {value : α} {rest : List Token} :
    o.inGroup = .ok value rest ↔ o = .ok value rest := by
  cases o <;> simp [inGroup]

end Outcome

namespace Parser

open SelectorXPath.Text SelectorXPath.Grammar

/-- What is dropped is white space, and what is left does not begin with any. -/
theorem dropBlank_sound (tokens : List Token) :
    ∃ before, tokens = before ++ dropBlank tokens ∧ Blank before ∧
      nextKind (dropBlank tokens) ≠ .whitespace := by
  induction tokens with
  | nil => exact ⟨[], rfl, .nil, by simp [dropBlank, nextKind]⟩
  | cons t ts ih =>
      by_cases hKind : t.kind = .whitespace
      · obtain ⟨before, hTokens, hBlank, hNext⟩ := ih
        have hDrop : dropBlank (t :: ts) = dropBlank ts := by simp [dropBlank, hKind]
        rw [hDrop]
        refine ⟨t :: before, by rw [List.cons_append, ← hTokens], ?_, hNext⟩
        intro x hx
        rcases List.mem_cons.mp hx with rfl | hx
        · exact hKind
        · exact hBlank x hx
      · have hDrop : dropBlank (t :: ts) = t :: ts := by simp [dropBlank, hKind]
        exact ⟨[], by rw [hDrop, List.nil_append], .nil, by rw [hDrop]; exact hKind⟩

/-- What is read as a local name is one token, and writes it. -/
theorem localName_sound {s : Setting} {expected : Expected} {tokens rest : List Token}
    {name : Option Text} (h : localName s expected tokens = .ok name rest) :
    ∃ t, tokens = t :: rest ∧ WritesLocalName t name := by
  cases tokens with
  | nil => cases h
  | cons t tokens =>
      simp only [localName] at h
      split at h
      · rename_i found hName
        cases h
        exact ⟨t, rfl, name?_eq_some_iff.mp hName⟩
      · cases h

/-- Where there is no name, nothing is read. -/
theorem qualifiedName_none {s : Setting} {expected : Expected} {tokens rest : List Token}
    (h : qualifiedName s expected tokens = .ok none rest) : rest = tokens := by
  cases tokens with
  | nil => cases h; rfl
  | cons t tokens =>
      simp only [qualifiedName] at h
      split at h
      · split at h
        · simp [Outcome.map_eq_ok_iff] at h
        · cases h
      · split at h
        · simp [Outcome.map_eq_ok_iff] at h
        · cases h; rfl

/-- What is read as a name writes the name. -/
theorem qualifiedName_sound {s : Setting} {expected : Expected} {tokens rest : List Token}
    {name : Qualifier × Option Text}
    (h : qualifiedName s expected tokens = .ok (some name) rest) :
    ∃ ts, tokens = ts ++ rest ∧ WritesName ts name := by
  cases tokens with
  | nil => cases h
  | cons t tokens =>
      simp only [qualifiedName] at h
      split at h
      · rename_i key hKey
        have hPrefix := name?_eq_some_iff.mp hKey
        split at h
        · rename_i hNext
          obtain ⟨inner, hLocal, hName⟩ := Outcome.map_eq_ok_iff.mp h
          obtain rfl := Option.some.inj hName
          obtain ⟨u, hTokens, hWritten⟩ := localName_sound hLocal
          cases tokens with
          | nil => simp [nextKind] at hNext
          | cons bar tokens =>
              simp only [List.drop_succ_cons, List.drop_zero] at hTokens
              refine ⟨[t, bar, u], by simp [hTokens], ?_⟩
              cases key with
              | none => exact .everywhere hPrefix hNext hWritten
              | some key => exact .qualified hPrefix hNext hWritten
        · cases h
          exact ⟨[t], rfl, .plain hPrefix⟩
      · split at h
        · rename_i hBar
          obtain ⟨inner, hLocal, hName⟩ := Outcome.map_eq_ok_iff.mp h
          obtain rfl := Option.some.inj hName
          obtain ⟨u, rfl, hWritten⟩ := localName_sound hLocal
          exact ⟨[t, u], rfl, .unqualified hBar hWritten⟩
        · cases h

/-- What is read of a string writes its text and the closing mark. -/
theorem stringText_sound {s : Setting} {mark : QuoteMark} {tokens rest : List Token}
    {text : Text} (h : stringText s mark tokens = .ok text rest) :
    ∃ ts, tokens = ts ++ rest ∧ WritesString mark ts text := by
  induction tokens generalizing text with
  | nil => cases h
  | cons t tokens ih =>
      simp only [stringText] at h
      split at h
      · rename_i hKind
        obtain ⟨inner, hInner, rfl⟩ := Outcome.map_eq_ok_iff.mp h
        obtain ⟨ts, rfl, hWritten⟩ := ih hInner
        exact ⟨t :: ts, rfl, .chars hKind hWritten⟩
      · rename_i hKind
        obtain ⟨inner, hInner, rfl⟩ := Outcome.map_eq_ok_iff.mp h
        obtain ⟨ts, rfl, hWritten⟩ := ih hInner
        exact ⟨t :: ts, rfl, .escaped hKind hWritten⟩
      · split at h
        · rename_i hKind
          cases h
          exact ⟨[t], rfl, .close hKind⟩
        · cases h

/-- What is read as a value writes it. -/
theorem value_sound {s : Setting} {tokens rest : List Token} {text : Text}
    (h : value s tokens = .ok text rest) : ∃ ts, tokens = ts ++ rest ∧ WritesValue ts text := by
  cases tokens with
  | nil => cases h
  | cons t tokens =>
      simp only [value] at h
      split at h
      · rename_i hKind
        cases h
        exact ⟨[t], rfl, .identifier hKind⟩
      · rename_i hKind
        cases h
        exact ⟨[t], rfl, .number hKind⟩
      · rename_i mark hKind
        obtain ⟨ts, rfl, hWritten⟩ := stringText_sound h
        exact ⟨t :: ts, rfl, .string hKind hWritten⟩
      · cases h

theorem comparison_sound {s : Setting} {tokens rest : List Token} {written : Option Comparison}
    (h : comparison s tokens = .ok written rest) :
    ∃ ts, tokens = ts ++ rest ∧ WritesComparison ts written := by
  cases tokens with
  | nil => cases h; exact ⟨[], rfl, .absent⟩
  | cons t tokens =>
      simp only [comparison] at h
      split at h
      · rename_i hKind
        split at h
        · rename_i operator hSign
          obtain ⟨text, behind, hValue, hRest⟩ := Outcome.andThen_eq_ok_iff.mp h
          cases hRest
          obtain ⟨before, hTokens, hBefore, -⟩ := dropBlank_sound tokens
          obtain ⟨ts, hInner, hWritten⟩ := value_sound hValue
          obtain ⟨after, hBehind, hAfter, -⟩ := dropBlank_sound behind
          refine ⟨t :: (before ++ ts ++ after), ?_, .present hKind hSign hBefore hWritten hAfter⟩
          rw [List.cons_append, List.append_assoc, List.append_assoc, ← hBehind, ← hInner,
            ← hTokens]
        · cases h
      · cases h
        exact ⟨[], rfl, .absent⟩

theorem expect_sound {s : Setting} {kind : Token.Kind} {delimiter : Char}
    {tokens rest : List Token} {value : Unit}
    (h : expect s kind delimiter tokens = .ok value rest) :
    ∃ stop, tokens = stop :: rest ∧ stop.kind = kind := by
  cases tokens with
  | nil => cases h
  | cons t tokens =>
      simp only [expect] at h
      split at h
      · rename_i hKind
        cases h
        exact ⟨t, rfl, hKind⟩
      · cases h

/-- What is read as an attribute test, with the bracket in front, writes it. -/
theorem attributeTest_sound {s : Setting} {tokens rest : List Token} {test : AttributeTest}
    (h : attributeTest s tokens = .ok test rest) {start : Token}
    (hStart : start.kind = .attributeStart) :
    ∃ ts, tokens = ts ++ rest ∧ WritesAttribute (start :: ts) test := by
  obtain ⟨name, behind, hName, h⟩ := Outcome.andThen_eq_ok_iff.mp h
  split at h
  · rename_i qualifier name
    obtain ⟨written, last, hComparison, h⟩ := Outcome.andThen_eq_ok_iff.mp h
    obtain ⟨_, hExpect, rfl⟩ := Outcome.map_eq_ok_iff.mp h
    obtain ⟨before, hTokens, hBefore, -⟩ := dropBlank_sound tokens
    obtain ⟨ts, hInner, hWritten⟩ := qualifiedName_sound hName
    obtain ⟨after, hBehind, hAfter, -⟩ := dropBlank_sound behind
    obtain ⟨cs, hCompared, hWritten'⟩ := comparison_sound hComparison
    obtain ⟨stop, rfl, hStop⟩ := expect_sound hExpect
    refine ⟨before ++ ts ++ after ++ cs ++ [stop], ?_,
      .intro hStart hBefore hWritten hAfter hWritten' hStop⟩
    simp only [List.append_assoc, List.cons_append, List.nil_append]
    rw [← hCompared, ← hBehind, ← hInner, ← hTokens]
  · cases h

/-- The text that is joined is that of all tokens up to the parenthesis. -/
theorem positionsText_sound {s : Setting} {tokens rest : List Token} {text : Text}
    (h : positionsText s tokens = .ok text rest) :
    ∃ ts stop more, tokens = ts ++ rest ∧ rest = stop :: more ∧ stop.kind = .parenthesesEnd ∧
      text = ts.flatMap Token.text := by
  induction tokens generalizing text with
  | nil => cases h
  | cons t tokens ih =>
      cases hKind : t.kind with
      | number | identifier | combinator | whitespace =>
          rw [positionsText_of_isPositional (by rw [hKind]; rfl)] at h
          obtain ⟨inner, hInner, rfl⟩ := Outcome.map_eq_ok_iff.mp h
          obtain ⟨ts, stop, more, rfl, rfl, hStop, rfl⟩ := ih hInner
          exact ⟨t :: ts, stop, more, rfl, rfl, hStop, rfl⟩
      | parenthesesEnd =>
          rw [positionsText_of_parenthesesEnd hKind] at h
          cases h
          exact ⟨[], t, tokens, rfl, rfl, hKind, rfl⟩
      | _ =>
          rw [positionsText, hKind] at h
          cases h

/-- Positions that are read are written by those tokens. -/
theorem positions_sound {s : Setting} {start : Nat} {tokens rest : List Token}
    {written : AnPlusB} (h : positions s start tokens = .ok written rest) :
    ∃ ts stop, tokens = ts ++ stop :: rest ∧ stop.kind = .parenthesesEnd ∧
      WritesPositions ts written := by
  obtain ⟨text, behind, hText, h⟩ := Outcome.andThen_eq_ok_iff.mp h
  obtain ⟨ts, stop, more, rfl, rfl, hStop, rfl⟩ := positionsText_sound hText
  split at h
  · rename_i hRead
    cases h
    exact ⟨ts, stop, rfl, hStop, hRead⟩
  · cases h

theorem textArgument_sound {s : Setting} {tokens rest : List Token} {text : Text}
    (h : textArgument s tokens = .ok text rest) :
    ∃ ts stop, tokens = ts ++ stop :: rest ∧ stop.kind = .parenthesesEnd ∧
      WritesText ts text := by
  obtain ⟨inner, behind, hValue, h⟩ := Outcome.andThen_eq_ok_iff.mp h
  obtain ⟨_, hExpect, rfl⟩ := Outcome.map_eq_ok_iff.mp h
  obtain ⟨before, hTokens, hBefore, -⟩ := dropBlank_sound tokens
  obtain ⟨ts, hInner, hWritten⟩ := value_sound hValue
  obtain ⟨after, hBehind, hAfter, -⟩ := dropBlank_sound behind
  obtain ⟨stop, hStop, hKind⟩ := expect_sound hExpect
  refine ⟨before ++ ts ++ after, stop, ?_, hKind, .intro hBefore hWritten hAfter⟩
  rw [List.append_assoc, List.append_assoc, ← hStop, ← hBehind, ← hInner, ← hTokens]

/-- A pseudo-class that is found by a name has that name. -/
theorem name_of_pseudoClass_ofName? {name : Text} {p : PseudoClass}
    (h : PseudoClass.ofName? name = some p) : name = p.name := by
  have := List.find?_some h
  exact (of_decide_eq_true this).symm

theorem name_of_functionalClass_ofName? {name : Text} {f : FunctionalClass}
    (h : FunctionalClass.ofName? name = some f) : name = f.name := by
  have := List.find?_some h
  exact (of_decide_eq_true this).symm

section

variable {s : Setting} {groups : GroupParser} {group : List Token → SelectorList → Prop}

/-- What is read behind the parenthesis completes the pseudo-class. -/
theorem functional_sound (hGroups : GroupReads groups group) {t start : Token}
    {tokens rest : List Token} {simple : Simple} (hKind : t.kind = .pseudoClass)
    (hStart : start.kind = .parenthesesStart)
    (h : functional s groups t start tokens = .ok simple rest) :
    ∃ ts, tokens = ts ++ rest ∧ WritesPart group (t :: start :: ts) simple := by
  unfold functional at h
  split at h
  · rename_i counting hName
    obtain ⟨written, hRead, rfl⟩ := Outcome.map_eq_ok_iff.mp h
    obtain ⟨ts, stop, rfl, hStop, hWritten⟩ := positions_sound hRead
    exact ⟨ts ++ [stop], by simp,
      .nth ⟨hKind, name_of_functionalClass_ofName? hName, hStart, hStop⟩ hWritten⟩
  · rename_i hName
    obtain ⟨list, hRead, rfl⟩ := Outcome.map_eq_ok_iff.mp h
    obtain ⟨ts, stop, rfl, hStop, hWritten⟩ := hGroups.sound hRead
    exact ⟨ts ++ [stop], by simp,
      .not ⟨hKind, name_of_functionalClass_ofName? hName, hStart, hStop⟩ hWritten⟩
  · rename_i hName
    obtain ⟨list, hRead, rfl⟩ := Outcome.map_eq_ok_iff.mp h
    obtain ⟨ts, stop, rfl, hStop, hWritten⟩ := hGroups.sound hRead
    exact ⟨ts ++ [stop], by simp,
      .has ⟨hKind, name_of_functionalClass_ofName? hName, hStart, hStop⟩ hWritten⟩
  · rename_i hName
    obtain ⟨text, hRead, rfl⟩ := Outcome.map_eq_ok_iff.mp h
    obtain ⟨ts, stop, rfl, hStop, hWritten⟩ := textArgument_sound hRead
    exact ⟨ts ++ [stop], by simp,
      .contains ⟨hKind, name_of_functionalClass_ofName? hName, hStart, hStop⟩ hWritten⟩
  · cases h

/-- A pseudo-class without parentheses is its name. -/
theorem plain_sound (group : List Token → SelectorList → Prop) {t : Token}
    {tokens rest : List Token} {simple : Simple}
    (hKind : t.kind = .pseudoClass) (h : plain t tokens = .ok simple rest) :
    rest = tokens ∧ WritesPart group [t] simple := by
  unfold plain at h
  split at h
  · rename_i hName
    cases h
    exact ⟨rfl, .pseudo hKind (name_of_pseudoClass_ofName? hName)⟩
  · split at h <;> cases h

theorem pseudo_sound (hGroups : GroupReads groups group) {t : Token}
    {tokens rest : List Token} {simple : Simple} (hKind : t.kind = .pseudoClass)
    (h : pseudo s groups t tokens = .ok simple rest) :
    ∃ ts, tokens = ts ++ rest ∧ WritesPart group (t :: ts) simple := by
  cases tokens with
  | nil =>
      obtain ⟨rfl, hWritten⟩ := plain_sound group hKind h
      exact ⟨[], rfl, hWritten⟩
  | cons next tokens =>
      simp only [pseudo] at h
      split at h
      · rename_i hStart
        obtain ⟨ts, rfl, hWritten⟩ := functional_sound hGroups hKind hStart h
        exact ⟨next :: ts, rfl, hWritten⟩
      · obtain ⟨rfl, hWritten⟩ := plain_sound group hKind h
        exact ⟨[], rfl, hWritten⟩

/-- Where there is no part, nothing is read. -/
theorem part_none {tokens rest : List Token} (h : part s groups tokens = .ok none rest) :
    rest = tokens := by
  cases tokens with
  | nil => cases h; rfl
  | cons t tokens =>
      simp only [part] at h
      split at h <;> simp_all [Outcome.map_eq_ok_iff, fail]

/-- What is read as a part writes it. -/
theorem part_sound (hGroups : GroupReads groups group) {tokens rest : List Token}
    {simple : Simple} (h : part s groups tokens = .ok (some simple) rest) :
    ∃ ts, tokens = ts ++ rest ∧ WritesPart group ts simple := by
  cases tokens with
  | nil => cases h
  | cons t tokens =>
      simp only [part] at h
      split at h
      · rename_i hKind
        cases h
        exact ⟨[t], rfl, .className hKind⟩
      · rename_i hKind
        cases h
        exact ⟨[t], rfl, .idName hKind⟩
      · rename_i hKind
        obtain ⟨test, hTest, hSimple⟩ := Outcome.map_eq_ok_iff.mp h
        obtain rfl := Option.some.inj hSimple
        obtain ⟨ts, rfl, hWritten⟩ := attributeTest_sound hTest hKind
        exact ⟨t :: ts, rfl, .attributeTest hWritten⟩
      · rename_i hKind
        obtain ⟨inner, hInner, hSimple⟩ := Outcome.map_eq_ok_iff.mp h
        obtain rfl := Option.some.inj hSimple
        obtain ⟨ts, rfl, hWritten⟩ := pseudo_sound hGroups hKind hInner
        exact ⟨t :: ts, rfl, hWritten⟩
      all_goals cases h

theorem parts_sound (hGroups : GroupReads groups group) {tokens rest : List Token}
    {simples : List Simple} (h : parts s groups tokens = .ok simples rest) :
    ∃ ts, tokens = ts ++ rest ∧ WritesParts group ts simples := by
  fun_induction parts s groups tokens generalizing simples with
  | case1 tokens simple behind hPart ih =>
      obtain ⟨inner, hInner, rfl⟩ := Outcome.map_eq_ok_iff.mp h
      obtain ⟨ts, rfl, hWritten⟩ := part_sound hGroups hPart
      obtain ⟨more, rfl, hMore⟩ := ih hInner
      exact ⟨ts ++ more, by simp, .cons hWritten hMore⟩
  | case2 tokens behind hPart =>
      cases h
      exact ⟨[], (part_none hPart).symm, .nil⟩
  | case3 => cases h

/-- What is read as a compound writes it, at the offset of its first token. -/
theorem compound_sound (hGroups : GroupReads groups group) {tokens rest : List Token}
    {written : Compound} (h : compound s groups tokens = .ok written rest) :
    ∃ ts, tokens = ts ++ rest ∧ WritesCompound group ts written := by
  obtain ⟨name, behind, hName, hRest⟩ := Outcome.andThen_eq_ok_iff.mp h
  obtain ⟨simples, last, hParts, hEnd⟩ := Outcome.andThen_eq_ok_iff.mp hRest
  obtain ⟨more, rfl, hMore⟩ := parts_sound hGroups hParts
  clear h hRest
  split at hEnd
  · cases hEnd
  · rename_i hSome
    cases hEnd
    obtain rfl := qualifiedName_none hName
    rw [nextOffset_append (writesParts_ne_nil hMore hSome)]
    exact ⟨more, rfl, .unnamed hMore hSome⟩
  · cases hEnd
    obtain ⟨ts, rfl, hWritten⟩ := qualifiedName_sound hName
    rw [nextOffset_append (writesName_ne_nil hWritten)]
    exact ⟨ts ++ more, by simp, .named hWritten hMore⟩

/-- White space that is no combinator has been passed over. -/
theorem link_none {tokens rest : List Token} (h : link tokens = .ok none rest) :
    rest = dropBlank tokens := by
  unfold link at h
  split at h
  · rename_i hRest
    cases h
    exact hRest.symm
  · rename_i t behind hRest
    split at h
    · split at h <;> cases h
    · split at h
      · cases h
      · cases h
        exact hRest.symm

/-- What is read between two compounds writes the combinator. -/
theorem link_sound {tokens rest : List Token} {combinator : Combinator}
    (h : link tokens = .ok (some combinator) rest) :
    ∃ ms, tokens = ms ++ rest ∧ WritesCombinator ms combinator := by
  obtain ⟨before, hTokens, hBefore, -⟩ := dropBlank_sound tokens
  unfold link at h
  split at h
  · cases h
  · rename_i t behind hRest
    rw [hRest] at hTokens
    split at h
    · rename_i hKind
      split at h
      · rename_i hSign
        cases h
        obtain ⟨after, hBehind, hAfter, -⟩ := dropBlank_sound behind
        refine ⟨before ++ t :: after, ?_, .sign hBefore hKind hSign hAfter⟩
        rw [List.append_assoc, List.cons_append, ← hBehind, ← hTokens]
      · cases h
    · split at h
      · rename_i hBlank
        cases h
        refine ⟨before, hTokens, .blank hBefore ?_⟩
        rintro rfl
        rw [List.nil_append] at hTokens
        rw [hTokens] at hBlank
        obtain ⟨hSpace, hStarts⟩ := hBlank
        simp only [nextKind] at hSpace
        simp [hSpace, startsCompound] at hStarts
      · cases h

/-- The loop of a chain adds to a derivation, and leaves white space behind the last compound. -/
theorem chain_sound (hGroups : GroupReads groups group) {left written : Complex}
    {ls tokens rest : List Token} (hLeft : WritesComplex group ls left)
    (h : chain s groups left tokens = .ok written rest) :
    ∃ ts after, tokens = ts ++ after ++ rest ∧ Blank after ∧
      WritesComplex group (ls ++ ts) written := by
  fun_induction chain s groups left tokens generalizing ls with
  | case1 left tokens behind hLink =>
      cases h
      obtain ⟨after, hTokens, hAfter, -⟩ := dropBlank_sound tokens
      rw [← link_none hLink] at hTokens
      exact ⟨[], after, by simpa using hTokens, hAfter, by simpa using hLeft⟩
  | case2 => cases h
  | case3 left tokens combinator behind hLink right last hCompound ih =>
      obtain ⟨ms, rfl, hCombinator⟩ := link_sound hLink
      obtain ⟨rs, rfl, hRight⟩ := compound_sound hGroups hCompound
      obtain ⟨ts, after, rfl, hAfter, hWritten⟩ := ih (.joined hLeft hCombinator hRight) h
      exact ⟨ms ++ rs ++ ts, after, by simp, hAfter, by simpa using hWritten⟩
  | case4 => cases h

/-- What is read as one selector has white space around it that may be missing. -/
theorem alternative_sound (hGroups : GroupReads groups group) {tokens rest : List Token}
    {selector : Complex} (h : alternative s groups tokens = .ok selector rest) :
    ∃ before ts after, tokens = before ++ ts ++ after ++ rest ∧ Blank before ∧ Blank after ∧
      WritesComplex group ts selector := by
  obtain ⟨inner, behind, hComplex, hRest⟩ := Outcome.andThen_eq_ok_iff.mp h
  cases hRest
  obtain ⟨first, last, hCompound, hChain⟩ := Outcome.andThen_eq_ok_iff.mp hComplex
  obtain ⟨before, hTokens, hBefore, -⟩ := dropBlank_sound tokens
  obtain ⟨fs, hInner, hFirst⟩ := compound_sound hGroups hCompound
  obtain ⟨ts, after, rfl, hAfter, hWritten⟩ := chain_sound hGroups (.single hFirst) hChain
  obtain ⟨more, hBehind, hMore, -⟩ := dropBlank_sound behind
  refine ⟨before, fs ++ ts, after ++ more, ?_, hBefore, ?_, hWritten⟩
  · simp only [List.append_assoc] at hInner ⊢
    rw [← hBehind, ← hInner, ← hTokens]
  · intro x hx
    rcases List.mem_append.mp hx with hx | hx
    · exact hAfter x hx
    · exact hMore x hx

/-- What is read as a list writes it, and stands in front of the token that closes it. -/
theorem list_sound (hGroups : GroupReads groups group) {close : Token.Kind}
    {tokens rest : List Token} {written : SelectorList}
    (h : list s groups close tokens = .ok written rest) :
    nextKind rest = close ∧ ∃ ts, tokens = ts ++ rest ∧ WritesAlternatives group ts written := by
  fun_induction list s groups close tokens generalizing written with
  | case1 => cases h
  | case2 tokens selector hRead =>
      rename_i hClose
      cases h
      obtain ⟨before, ts, after, rfl, hBefore, hAfter, hWritten⟩ := alternative_sound hGroups hRead
      exact ⟨hClose.symm, before ++ ts ++ after, rfl, .one hBefore hWritten hAfter⟩
  | case3 => cases h
  | case4 tokens selector comma behind hRead hComma ih =>
      obtain ⟨inner, hInner, rfl⟩ := Outcome.map_eq_ok_iff.mp h
      obtain ⟨before, ts, after, rfl, hBefore, hAfter, hWritten⟩ := alternative_sound hGroups hRead
      obtain ⟨hNext, more, rfl, hMore⟩ := ih hInner
      exact ⟨hNext, before ++ ts ++ after ++ comma :: more, by simp,
        .more hBefore hWritten hAfter hComma hMore⟩
  | case5 tokens selector t behind hRead hOther hClose =>
      cases h
      obtain ⟨before, ts, after, rfl, hBefore, hAfter, hWritten⟩ := alternative_sound hGroups hRead
      exact ⟨hClose, before ++ ts ++ after, rfl, .one hBefore hWritten hAfter⟩
  | case6 => cases h

end

/-- Groups are read as far as they are allowed to nest. -/
theorem groups_reads (s : Setting) (allowance : Nat) :
    GroupReads (groups s allowance) (writesGroup allowance) := by
  induction allowance with
  | zero => exact ⟨fun _ _ _ h => h.elim, fun h => by cases h⟩
  | succ allowance ih =>
      constructor
      · intro offset start stop ts written rest hStop hScanned h
        have hRead : list s (groups s allowance) .parenthesesEnd (ts ++ stop :: rest) =
            .ok written (stop :: rest) := list_of_writes ih hScanned h (Or.inr rfl) hStop
        simp [groups, hRead, Outcome.inGroup, Outcome.andThen]
      · intro offset start tokens rest list h
        obtain ⟨inner, behind, hList, hRest⟩ := Outcome.andThen_eq_ok_iff.mp h
        obtain ⟨hNext, ts, hTokens, hWritten⟩ := list_sound ih (Outcome.inGroup_eq_ok_iff.mp hList)
        cases hRest
        cases behind with
        | nil => cases hNext
        | cons stop behind =>
            exact ⟨ts, stop, by simpa using hTokens, hNext, hWritten⟩

end Parser

end SelectorXPath
