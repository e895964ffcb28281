import SelectorXPath.Proofs.Selector.Acceptance

/-! Properties of the tokens that a selector is written with. Most tokens are flat: they neither
name a pseudo-class nor stand at one end of an argument or between selectors. A property of rows of
tokens that flat rows have, that pseudo-classes have together with their arguments, and that rows
one behind the other have if each of them has it, is a property of every selector. -/

namespace SelectorXPath

/-- Neither a separator, nor a parenthesis, nor the name of a pseudo-class. -/
def Token.Kind.isFlat : Token.Kind → Bool
  | .parenthesesStart | .parenthesesEnd | .separator | .pseudoClass => false
  | _ => true

namespace Grammar

/-- All of the tokens are flat. -/
def Flat (ts : List Token) : Prop :=
  ∀ t ∈ ts, t.kind.isFlat = true

section

variable {ts us : List Token} {t : Token}

theorem Flat.nil : Flat [] := by
  intro t ht
  cases ht

theorem Flat.cons (hFirst : t.kind.isFlat = true) (h : Flat ts) : Flat (t :: ts) :=
  List.forall_mem_cons.mpr ⟨hFirst, h⟩

theorem Flat.append (h : Flat ts) (h' : Flat us) : Flat (ts ++ us) :=
  List.forall_mem_append.mpr ⟨h, h'⟩

theorem flat_singleton (h : t.kind.isFlat = true) : Flat [t] :=
  .cons h .nil

/-- White space is flat. -/
theorem flat_of_blank (h : Blank ts) : Flat ts := by
  intro t ht
  rw [h t ht]
  rfl

theorem isFlat_of_writesLocalName {name : Option Text} (h : WritesLocalName t name) :
    t.kind.isFlat = true := by
  cases h with
  | name hKind | every hKind =>
      rw [hKind]
      rfl

theorem flat_of_writesName {name : Qualifier × Option Text} (h : WritesName ts name) :
    Flat ts := by
  cases h with
  | plain h => exact flat_singleton (isFlat_of_writesLocalName h)
  | unqualified hBar h =>
      exact .cons (by rw [hBar]; rfl) (flat_singleton (isFlat_of_writesLocalName h))
  | everywhere hPrefix hBar h | qualified hPrefix hBar h =>
      exact .cons (isFlat_of_writesLocalName hPrefix)
        (.cons (by rw [hBar]; rfl) (flat_singleton (isFlat_of_writesLocalName h)))

/-- The inside of a string is flat, although the string may hold any character. -/
theorem flat_of_writesString {mark : QuoteMark} {text : Text} (h : WritesString mark ts text) :
    Flat ts := by
  induction h with
  | close hKind => exact flat_singleton (by rw [hKind]; rfl)
  | chars hKind _ ih | escaped hKind _ ih => exact .cons (by rw [hKind]; rfl) ih

theorem flat_of_writesValue {text : Text} (h : WritesValue ts text) : Flat ts := by
  cases h with
  | identifier hKind | number hKind => exact flat_singleton (by rw [hKind]; rfl)
  | string hKind hRest => exact .cons (by rw [hKind]; rfl) (flat_of_writesString hRest)

theorem flat_of_writesComparison {comparison : Option Comparison}
    (h : WritesComparison ts comparison) : Flat ts := by
  cases h with
  | absent => exact .nil
  | present hKind _ hBefore h hAfter =>
      exact .cons (by rw [hKind]; rfl)
        (((flat_of_blank hBefore).append (flat_of_writesValue h)).append (flat_of_blank hAfter))

/-- Brackets are no parentheses, and nothing inside of them is. -/
theorem flat_of_writesAttribute {test : AttributeTest} (h : WritesAttribute ts test) :
    Flat ts := by
  cases h with
  | intro hStart hBefore hName hAfter hComparison hStop =>
      have hInside := ((flat_of_blank hBefore).append (flat_of_writesName hName)).append
        (flat_of_blank hAfter)
      exact .cons (by rw [hStart]; rfl)
        ((hInside.append (flat_of_writesComparison hComparison)).append
          (flat_singleton (by rw [hStop]; rfl)))

theorem flat_of_writesText {text : Text} (h : WritesText ts text) : Flat ts := by
  cases h with
  | intro hBefore h hAfter =>
      exact ((flat_of_blank hBefore).append (flat_of_writesValue h)).append (flat_of_blank hAfter)

/-- A combinator is flat, and a comma is not. -/
theorem flat_of_writesCombinator {combinator : Combinator} (h : WritesCombinator ts combinator) :
    Flat ts := by
  cases h with
  | blank h _ => exact flat_of_blank h
  | sign hBefore hKind _ hAfter =>
      exact (flat_of_blank hBefore).append (.cons (by rw [hKind]; rfl) (flat_of_blank hAfter))

/-- Positions are written with flat tokens, where no string goes on. -/
theorem flat_of_writesPositions {start : Token} {positions : AnPlusB}
    (hScanned : Scanned (start :: ts)) (hStart : start.kind = .parenthesesStart)
    (h : WritesPositions ts positions) : Flat ts := by
  intro t ht
  have hKind := hScanned.isPositional (by rw [hStart]; rfl) h t ht
  cases hCase : t.kind <;> rw [hCase] at hKind <;> first | rfl | cases hKind

end

/-- The property passes from the parts of a selector to the selector, if it passes from what
parentheses hold to the pseudo-classes that hold selectors. -/
structure Compositional (group : List Token → SelectorList → Prop) (P : List Token → Prop) :
    Prop where
  append : ∀ {ts us : List Token}, P ts → P us → P (ts ++ us)
  flat : ∀ {ts : List Token}, Flat ts → P ts
  plain : ∀ {t : Token} {pseudoClass : PseudoClass}, t.kind = .pseudoClass →
    Parser.pseudoName t = pseudoClass.name → P [t]
  argument : ∀ {t start stop : Token} {ts : List Token} {functional : FunctionalClass},
    Encloses t start stop functional → functional ≠ .not → functional ≠ .has → Flat ts →
    P (t :: start :: (ts ++ [stop]))
  group : ∀ {t start stop : Token} {ts : List Token} {functional : FunctionalClass}
    {list : SelectorList}, Encloses t start stop functional →
    functional = .not ∨ functional = .has → Scanned ts → group ts list →
    P (t :: start :: (ts ++ [stop]))

namespace Compositional

variable {group : List Token → SelectorList → Prop} {P : List Token → Prop} {ts : List Token}
  (hP : Compositional group P)

include hP

/-- A part is flat, or it is a pseudo-class with parentheses, of which the property says what it
says. -/
theorem part {simple : Simple} (hScanned : Scanned ts) (h : WritesPart group ts simple) :
    P ts := by
  cases h with
  | className hKind | idName hKind => exact hP.flat (flat_singleton (by rw [hKind]; rfl))
  | attributeTest h => exact hP.flat (flat_of_writesAttribute h)
  | pseudo hKind hName => exact hP.plain hKind hName
  | @nth t start stop ts _ _ hEnclosed h =>
      have hPart : Scanned (start :: ts) := hScanned.part ⟨[t], [stop], by simp⟩
      exact hP.argument hEnclosed nofun nofun (flat_of_writesPositions hPart hEnclosed.start h)
  | @not t start stop ts _ hEnclosed h =>
      exact hP.group hEnclosed (Or.inl rfl) (hScanned.part ⟨[t, start], [stop], by simp⟩) h
  | @has t start stop ts _ hEnclosed h =>
      exact hP.group hEnclosed (Or.inr rfl) (hScanned.part ⟨[t, start], [stop], by simp⟩) h
  | contains hEnclosed h => exact hP.argument hEnclosed nofun nofun (flat_of_writesText h)

theorem parts {simples : List Simple} (hScanned : Scanned ts)
    (h : WritesParts group ts simples) : P ts := by
  induction h with
  | nil => exact hP.flat .nil
  | @cons ts more _ _ h _ ih =>
      have hPart := hP.part (hScanned.part (List.prefix_append ts more).isInfix) h
      exact hP.append hPart (ih (hScanned.part (List.suffix_append ts more).isInfix))

/-- What holds of the parts holds of the compound. -/
theorem compound {written : Compound} (hScanned : Scanned ts)
    (h : WritesCompound group ts written) : P ts := by
  cases h with
  | @named ts more _ _ hName h =>
      exact hP.append (hP.flat (flat_of_writesName hName))
        (hP.parts (hScanned.part (List.suffix_append ts more).isInfix) h)
  | unnamed h _ => exact hP.parts hScanned h

theorem complex {selector : Complex} (hScanned : Scanned ts)
    (h : WritesComplex group ts selector) : P ts := by
  induction h with
  | single h => exact hP.compound hScanned h
  | @joined ls ms rs _ _ _ _ hCombinator hRight ih =>
      have hLeft := ih (hScanned.part (List.prefix_append ls (ms ++ rs)).isInfix)
      have hMiddle := hP.flat (flat_of_writesCombinator hCombinator)
      have hLast := hP.compound (hScanned.part ⟨ls ++ ms, [], by simp⟩) hRight
      exact hP.append hLeft (hP.append hMiddle hLast)

/-- For a list the property must hold of commas, too. -/
theorem alternatives {list : SelectorList} (hComma : ∀ t : Token, t.kind = .separator → P [t])
    (hScanned : Scanned ts) (h : WritesAlternatives group ts list) : P ts := by
  induction h with
  | @one before ts after _ hBefore h hAfter =>
      have hSelector := hP.complex (hScanned.part ⟨before, after, rfl⟩) h
      exact hP.append (hP.append (hP.flat (flat_of_blank hBefore)) hSelector)
        (hP.flat (flat_of_blank hAfter))
  | @more before ts after rest comma _ list hBefore h hAfter hKind _ ih =>
      have hSelector := hP.complex (hScanned.part ⟨before, after ++ comma :: rest, by simp⟩) h
      have hRest := ih (hScanned.part ⟨before ++ ts ++ after ++ [comma], [], by simp⟩)
      have hFirst := hP.append (hP.append (hP.flat (flat_of_blank hBefore)) hSelector)
        (hP.flat (flat_of_blank hAfter))
      exact hP.append hFirst (hP.append (hComma comma hKind) hRest)

end Compositional

end Grammar

namespace Parser

open SelectorXPath.Grammar

variable {s : Setting} {groups : GroupParser} {group : List Token → SelectorList → Prop}
  {P : List Token → Prop} {tokens rest : List Token}

/-! What a parser has read when it succeeds lies in front of the tokens that it leaves. -/

/-- What is read as a name is flat, and it is read from the front of the tokens. -/
theorem flat_of_qualifiedName {expected : Expected} {name : Option (Qualifier × Option Text)}
    (h : qualifiedName s expected tokens = .ok name rest) :
    ∃ ts, tokens = ts ++ rest ∧ Flat ts := by
  cases name with
  | none => exact ⟨[], (qualifiedName_none h).symm, .nil⟩
  | some name =>
      obtain ⟨ts, hTokens, hWritten⟩ := qualifiedName_sound h
      exact ⟨ts, hTokens, flat_of_writesName hWritten⟩

theorem flat_of_link {found : Option Combinator} (h : link tokens = .ok found rest) :
    ∃ ts, tokens = ts ++ rest ∧ Flat ts := by
  cases found with
  | none =>
      obtain ⟨before, hTokens, hBlank, -⟩ := dropBlank_sound tokens
      rw [← link_none h] at hTokens
      exact ⟨before, hTokens, flat_of_blank hBlank⟩
  | some combinator =>
      obtain ⟨ms, hTokens, hWritten⟩ := link_sound h
      exact ⟨ms, hTokens, flat_of_writesCombinator hWritten⟩

/-- What the parser has taken for a part, or passed over where there is none, has the property. -/
theorem composed_of_part (hP : Compositional group P) (hGroups : GroupReads groups group)
    (hScanned : Scanned tokens) {found : Option Simple}
    (h : part s groups tokens = .ok found rest) : ∃ ts, tokens = ts ++ rest ∧ P ts := by
  cases found with
  | none => exact ⟨[], (part_none h).symm, hP.flat .nil⟩
  | some simple =>
      obtain ⟨ts, rfl, hWritten⟩ := part_sound hGroups h
      exact ⟨ts, rfl, hP.part (hScanned.part (List.prefix_append ts rest).isInfix) hWritten⟩

theorem composed_of_parts (hP : Compositional group P) (hGroups : GroupReads groups group)
    (hScanned : Scanned tokens) {simples : List Simple}
    (h : parts s groups tokens = .ok simples rest) : ∃ ts, tokens = ts ++ rest ∧ P ts := by
  obtain ⟨ts, rfl, hWritten⟩ := parts_sound hGroups h
  exact ⟨ts, rfl, hP.parts (hScanned.part (List.prefix_append ts rest).isInfix) hWritten⟩

theorem composed_of_compound (hP : Compositional group P) (hGroups : GroupReads groups group)
    (hScanned : Scanned tokens) {written : Compound}
    (h : compound s groups tokens = .ok written rest) : ∃ ts, tokens = ts ++ rest ∧ P ts := by
  obtain ⟨ts, rfl, hWritten⟩ := compound_sound hGroups h
  exact ⟨ts, rfl, hP.compound (hScanned.part (List.prefix_append ts rest).isInfix) hWritten⟩

theorem composed_of_alternative (hP : Compositional group P) (hGroups : GroupReads groups group)
    (hScanned : Scanned tokens) {selector : Complex}
    (h : alternative s groups tokens = .ok selector rest) : ∃ ts, tokens = ts ++ rest ∧ P ts := by
  obtain ⟨before, ts, after, rfl, hBefore, hAfter, hWritten⟩ := alternative_sound hGroups h
  have hSelector := hP.complex (hScanned.part ⟨before, after ++ rest, by simp⟩) hWritten
  exact ⟨before ++ ts ++ after, rfl, hP.append
    (hP.append (hP.flat (flat_of_blank hBefore)) hSelector) (hP.flat (flat_of_blank hAfter))⟩

end Parser

end SelectorXPath
