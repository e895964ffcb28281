import SelectorXPath.Proofs.Selector.Acceptance
import SelectorXPath.Proofs.Selector.Agreement
import SelectorXPath.Proofs.Token.Spaces

/-! Tokens that are alike write the same, and so they do with more white space around combinators
and commas, where the grammar allows any. Only the offsets of compounds tell the difference. -/

namespace SelectorXPath.Grammar

open SelectorXPath.Text SelectorXPath.Token

variable {t u : Token} {ts us : List Token}

theorem Blank.of_spaces (h : Spaces ts) : Blank ts :=
  fun t ht => (h t ht).1

theorem Blank.append (h : Blank ts) (h' : Blank us) : Blank (ts ++ us) :=
  List.forall_mem_append.mpr ⟨h, h'⟩

/-- White space stays white space. -/
theorem Blank.respaced (h : Blank ts) (hSame : Respaced ts us) : Blank us := by
  induction hSame with
  | nil => exact h
  | cons hAlike _ ih =>
      obtain ⟨hFirst, hMore⟩ := List.forall_mem_cons.mp h
      exact List.forall_mem_cons.mpr ⟨hAlike.kind_eq.trans hFirst, ih hMore⟩
  | sign hKind _ _ _ _ _ =>
      rw [(List.forall_mem_cons.mp h).1] at hKind
      simp at hKind

/-- A name comes back by itself, and white space around signs behind it stays behind it. -/
theorem WritesLocalName.respaced {name : Option Text} (h : WritesLocalName t name)
    (hSame : Respaced (t :: ts) us) :
    ∃ u vs, us = u :: vs ∧ WritesLocalName u name ∧ Respaced ts vs := by
  cases h with
  | name h =>
      obtain ⟨u, vs, rfl, hKind, hAlike, hRest⟩ := hSame.cons_inv h rfl
      have hName : unescape u.text = unescape t.text := hAlike.meaning h
      exact ⟨u, vs, rfl, hName ▸ .name hKind, hRest⟩
  | every h =>
      obtain ⟨u, vs, rfl, hKind, hAlike, hRest⟩ := hSame.cons_inv h rfl
      exact ⟨u, vs, rfl, .every hKind, hRest⟩

theorem WritesName.respaced {name : Qualifier × Option Text} (h : WritesName ts name)
    (hSame : Respaced ts us) : WritesName us name := by
  cases h with
  | plain h =>
      obtain ⟨t', _, rfl, h', hRest⟩ := h.respaced hSame
      cases hRest
      exact .plain h'
  | unqualified hBar h =>
      obtain ⟨bar', _, rfl, hBar', -, hSame⟩ := hSame.cons_inv hBar rfl
      obtain ⟨t', _, rfl, h', hRest⟩ := h.respaced hSame
      cases hRest
      exact .unqualified hBar' h'
  | everywhere hPrefix hBar h =>
      obtain ⟨p', _, rfl, hPrefix', hSame⟩ := hPrefix.respaced hSame
      obtain ⟨bar', _, rfl, hBar', -, hSame⟩ := hSame.cons_inv hBar rfl
      obtain ⟨t', _, rfl, h', hRest⟩ := h.respaced hSame
      cases hRest
      exact .everywhere hPrefix' hBar' h'
  | qualified hPrefix hBar h =>
      obtain ⟨p', _, rfl, hPrefix', hSame⟩ := hPrefix.respaced hSame
      obtain ⟨bar', _, rfl, hBar', -, hSame⟩ := hSame.cons_inv hBar rfl
      obtain ⟨t', _, rfl, h', hRest⟩ := h.respaced hSame
      cases hRest
      exact .qualified hPrefix' hBar' h'

/-- No white space is put into a string. -/
theorem WritesString.respaced {mark : QuoteMark} {text : Text} (h : WritesString mark ts text)
    (hSame : Respaced ts us) : WritesString mark us text := by
  induction h generalizing us with
  | close h =>
      obtain ⟨u, rfl, hKind, -⟩ := hSame.singleton_inv h rfl
      exact .close hKind
  | @chars t _ _ h _ ih =>
      obtain ⟨u, vs, rfl, hKind, hAlike, hRest⟩ := hSame.cons_inv h rfl
      have hText : u.text = t.text := hAlike.meaning h
      exact hText ▸ .chars hKind (ih hRest)
  | @escaped t _ _ h _ ih =>
      obtain ⟨u, vs, rfl, hKind, hAlike, hRest⟩ := hSame.cons_inv h rfl
      have hText : u.text = t.text := hAlike.meaning h
      exact hText ▸ .escaped hKind (ih hRest)

theorem WritesValue.respaced {text : Text} (h : WritesValue ts text) (hSame : Respaced ts us) :
    WritesValue us text := by
  cases h with
  | @identifier t h =>
      obtain ⟨u, rfl, hKind, hAlike⟩ := hSame.singleton_inv h rfl
      have hName : unescape u.text = unescape t.text := hAlike.meaning h
      exact hName ▸ .identifier hKind
  | @number t h =>
      obtain ⟨u, rfl, hKind, hAlike⟩ := hSame.singleton_inv h rfl
      have hText : u.text = t.text := hAlike.meaning h
      exact hText ▸ .number hKind
  | string h hRest =>
      obtain ⟨u, vs, rfl, hKind, -, hInside⟩ := hSame.cons_inv h rfl
      exact .string hKind (hRest.respaced hInside)

theorem WritesComparison.respaced {comparison : Option Comparison}
    (h : WritesComparison ts comparison) (hSame : Respaced ts us) :
    WritesComparison us comparison := by
  cases h with
  | absent =>
      cases hSame
      exact .absent
  | @present t before ts after operator value hKind hSign hBefore h hAfter =>
      obtain ⟨u, _, rfl, hKind', hAlike, hSame⟩ := hSame.cons_inv hKind rfl
      have hText : u.text = t.text := hAlike.meaning hKind
      obtain ⟨_, after', rfl, hFront, hAfter'⟩ := hSame.cut
      obtain ⟨before', ts', rfl, hBefore', hSame'⟩ := hFront.cut
      exact .present hKind' (hText ▸ hSign) (hBefore.respaced hBefore') (h.respaced hSame')
        (hAfter.respaced hAfter')

theorem WritesAttribute.respaced {test : AttributeTest} (h : WritesAttribute ts test)
    (hSame : Respaced ts us) : WritesAttribute us test := by
  cases h with
  | intro hStart hBefore hName hAfter hComparison hStop =>
      obtain ⟨start', _, rfl, hStart', -, hBehind⟩ := hSame.cons_inv hStart rfl
      obtain ⟨_, _, rfl, hInside, hLast⟩ := hBehind.cut
      obtain ⟨_, cs', rfl, hFront, hComparison'⟩ := hInside.cut
      obtain ⟨_, after', rfl, hNamed, hAfter'⟩ := hFront.cut
      obtain ⟨before', ts', rfl, hBefore', hName'⟩ := hNamed.cut
      obtain ⟨stop', rfl, hStop', -⟩ := hLast.singleton_inv hStop rfl
      exact .intro hStart' (hBefore.respaced hBefore') (hName.respaced hName')
        (hAfter.respaced hAfter') (hComparison.respaced hComparison') hStop'

/-- Space may stand anywhere in positions. -/
theorem WritesPositions.respaced {positions : AnPlusB} (h : WritesPositions ts positions)
    (hSame : Respaced ts us) : WritesPositions us positions := by
  rw [WritesPositions, AnPlusB.read?, hSame.compact_eq]
  exact h

/-- White space around an argument may become more. -/
theorem WritesText.respaced {text : Text} (h : WritesText ts text) (hSame : Respaced ts us) :
    WritesText us text := by
  cases h with
  | intro hBefore h hAfter =>
      obtain ⟨_, after', rfl, hSame, hAfter'⟩ := hSame.cut
      obtain ⟨before', ts', rfl, hBefore', hText'⟩ := hSame.cut
      exact .intro (hBefore.respaced hBefore') (h.respaced hText') (hAfter.respaced hAfter')

/-- The same parentheses, around what stands between them. -/
theorem Encloses.respaced {start stop : Token} {functional : FunctionalClass}
    (h : Encloses t start stop functional) (hSame : Respaced (t :: start :: (ts ++ [stop])) us) :
    ∃ t' start' stop' vs, us = t' :: start' :: (vs ++ [stop']) ∧
      Encloses t' start' stop' functional ∧ Respaced ts vs := by
  obtain ⟨t', _, rfl, hKind, hAlike, hSame⟩ := hSame.cons_inv h.kind rfl
  obtain ⟨start', _, rfl, hStart, -, hSame⟩ := hSame.cons_inv h.start rfl
  obtain ⟨vs, _, rfl, hInside, hLast⟩ := hSame.cut
  obtain ⟨stop', rfl, hStop, -⟩ := hLast.singleton_inv h.stop rfl
  have hName : unescape (t'.text.drop 1) = unescape (t.text.drop 1) := hAlike.meaning h.kind
  refine ⟨t', start', stop', vs, rfl, ⟨hKind, ?_, hStart, hStop⟩, hInside⟩
  rw [Parser.pseudoName, hName]
  exact h.name

/-- Around a combinator more white space changes nothing, and white space alone stays a
combinator. -/
theorem WritesCombinator.respaced {combinator : Combinator} (h : WritesCombinator ts combinator)
    (hSame : Respaced ts us) : WritesCombinator us combinator := by
  cases h with
  | blank h hSome =>
      have hBlank := h.respaced hSame
      obtain ⟨t, ts, rfl⟩ := List.exists_cons_of_ne_nil hSome
      obtain ⟨u, us, rfl, -⟩ := hSame.cons_inv (h t List.mem_cons_self) rfl
      exact .blank hBlank (List.cons_ne_nil u us)
  | @sign t before after _ hBefore hKind hSign hAfter =>
      obtain ⟨before', _, rfl, hBefore', hSame⟩ := hSame.cut
      obtain ⟨before'', u, after'', vs, rfl, hAlike, hFront, hBack, hAfter'⟩ := hSame.sign_inv
      have hText : u.text = t.text := hAlike.meaning hKind
      rw [← List.append_assoc]
      exact .sign ((hBefore.respaced hBefore').append (.of_spaces hFront))
        (hAlike.kind_eq.trans hKind) (hText ▸ hSign)
        ((Blank.of_spaces hBack).append (hAfter.respaced hAfter'))

section

variable {group : List Token → SelectorList → Prop}

/-- What parentheses hold means the same with other white space. -/
def AllowsSpace (group : List Token → SelectorList → Prop) : Prop :=
  ∀ ts us list, group ts list → Respaced ts us →
    ∃ list', group us list' ∧ listUnplaced list' = listUnplaced list

/-- A part keeps its meaning if what its parentheses hold does. -/
theorem WritesPart.respaced {part : Simple} (hGroup : AllowsSpace group)
    (h : WritesPart group ts part) (hSame : Respaced ts us) :
    ∃ part', WritesPart group us part' ∧ part'.unplaced = part.unplaced := by
  cases h with
  | @className t h =>
      obtain ⟨u, rfl, hKind, hAlike⟩ := hSame.singleton_inv h rfl
      have hName : unescape (u.text.drop 1) = unescape (t.text.drop 1) := hAlike.meaning h
      exact ⟨_, .className hKind, by rw [hName]⟩
  | @idName t h =>
      obtain ⟨u, rfl, hKind, hAlike⟩ := hSame.singleton_inv h rfl
      have hName : unescape (u.text.drop 1) = unescape (t.text.drop 1) := hAlike.meaning h
      exact ⟨_, .idName hKind, by rw [hName]⟩
  | attributeTest h => exact ⟨_, .attributeTest (h.respaced hSame), rfl⟩
  | @pseudo t _ hKind hName =>
      obtain ⟨u, rfl, hKind', hAlike⟩ := hSame.singleton_inv hKind rfl
      have hText : unescape (u.text.drop 1) = unescape (t.text.drop 1) := hAlike.meaning hKind
      rw [Parser.pseudoName, ← hText] at hName
      exact ⟨_, .pseudo hKind' hName, rfl⟩
  | nth hEnclosed h =>
      obtain ⟨t', start', stop', vs, rfl, hEnclosed', hInside⟩ := hEnclosed.respaced hSame
      exact ⟨_, .nth hEnclosed' (h.respaced hInside), rfl⟩
  | not hEnclosed h =>
      obtain ⟨t', start', stop', vs, rfl, hEnclosed', hInside⟩ := hEnclosed.respaced hSame
      obtain ⟨list', hList, hUnplaced⟩ := hGroup _ _ _ h hInside
      exact ⟨_, .not hEnclosed' hList, by rw [Simple.unplaced, Simple.unplaced, hUnplaced]⟩
  | has hEnclosed h =>
      obtain ⟨t', start', stop', vs, rfl, hEnclosed', hInside⟩ := hEnclosed.respaced hSame
      obtain ⟨list', hList, hUnplaced⟩ := hGroup _ _ _ h hInside
      exact ⟨_, .has hEnclosed' hList, by rw [Simple.unplaced, Simple.unplaced, hUnplaced]⟩
  | contains hEnclosed h =>
      obtain ⟨t', start', stop', vs, rfl, hEnclosed', hInside⟩ := hEnclosed.respaced hSame
      exact ⟨_, .contains hEnclosed' (h.respaced hInside), rfl⟩

theorem WritesParts.respaced {parts : List Simple} (hGroup : AllowsSpace group)
    (h : WritesParts group ts parts) (hSame : Respaced ts us) :
    ∃ parts', WritesParts group us parts' ∧ partsUnplaced parts' = partsUnplaced parts := by
  induction h generalizing us with
  | nil =>
      cases hSame
      exact ⟨[], .nil, rfl⟩
  | cons h _ ih =>
      obtain ⟨ts', more', rfl, hFirst, hMore⟩ := hSame.cut
      obtain ⟨part', hPart, hUnplaced⟩ := h.respaced hGroup hFirst
      obtain ⟨parts', hParts, hUnplaced'⟩ := ih hMore
      exact ⟨part' :: parts', .cons hPart hParts,
        by rw [partsUnplaced, partsUnplaced, hUnplaced, hUnplaced']⟩

/-- A compound may move to another offset, and is the same apart from that. -/
theorem WritesCompound.respaced {compound : Compound} (hGroup : AllowsSpace group)
    (h : WritesCompound group ts compound) (hSame : Respaced ts us) :
    ∃ compound', WritesCompound group us compound' ∧ compound'.unplaced = compound.unplaced := by
  cases h with
  | named hName h =>
      obtain ⟨ts', more', rfl, hName', hMore⟩ := hSame.cut
      obtain ⟨parts', hParts, hUnplaced⟩ := h.respaced hGroup hMore
      exact ⟨_, .named (hName.respaced hName') hParts,
        by rw [Compound.unplaced, Compound.unplaced, partsUnplaced, partsUnplaced, hUnplaced]⟩
  | unnamed h hSome =>
      obtain ⟨parts', hParts, hUnplaced⟩ := h.respaced hGroup hSame
      refine ⟨_, .unnamed hParts ?_, by rw [Compound.unplaced, Compound.unplaced, hUnplaced]⟩
      rintro rfl
      obtain ⟨part, parts, rfl⟩ := List.exists_cons_of_ne_nil hSome
      cases hUnplaced

theorem WritesComplex.respaced {selector : Complex} (hGroup : AllowsSpace group)
    (h : WritesComplex group ts selector) (hSame : Respaced ts us) :
    ∃ selector', WritesComplex group us selector' ∧ selector'.unplaced = selector.unplaced := by
  induction h generalizing us with
  | single h =>
      obtain ⟨compound', hCompound, hUnplaced⟩ := h.respaced hGroup hSame
      exact ⟨_, .single hCompound, by rw [Complex.unplaced, Complex.unplaced, hUnplaced]⟩
  | joined _ hCombinator hRight ih =>
      obtain ⟨ls', _, rfl, hLeft', hSame⟩ := hSame.cut
      obtain ⟨ms', rs', rfl, hMiddle', hRight'⟩ := hSame.cut
      obtain ⟨left', hLeft, hUnplaced⟩ := ih hLeft'
      obtain ⟨right', hRight, hUnplaced'⟩ := hRight.respaced hGroup hRight'
      exact ⟨_, .joined hLeft (hCombinator.respaced hMiddle') hRight,
        by rw [Complex.unplaced, Complex.unplaced, hUnplaced, hUnplaced']⟩

/-- White space in front of a list says nothing. -/
theorem WritesAlternatives.preceded {before : List Token} {list : SelectorList}
    (h : WritesAlternatives group ts list) (hBefore : Blank before) :
    WritesAlternatives group (before ++ ts) list := by
  cases h with
  | one hBlank h hAfter =>
      rw [← List.append_assoc, ← List.append_assoc]
      exact .one (hBefore.append hBlank) h hAfter
  | more hBlank h hAfter hComma hRest =>
      rw [← List.append_assoc, ← List.append_assoc, ← List.append_assoc]
      exact .more (hBefore.append hBlank) h hAfter hComma hRest

/-- White space behind a list says nothing. -/
theorem WritesAlternatives.followed {after : List Token} {list : SelectorList}
    (h : WritesAlternatives group ts list) (hAfter : Blank after) :
    WritesAlternatives group (ts ++ after) list := by
  induction h with
  | one hBefore h hBlank =>
      rw [List.append_assoc]
      exact .one hBefore h (hBlank.append hAfter)
  | more hBefore h hBlank hComma _ ih =>
      rw [List.append_assoc]
      exact .more hBefore h hBlank hComma ih

/-- A list is the same apart from offsets, with more white space around its commas and
combinators. -/
theorem WritesAlternatives.respaced {list : SelectorList} (hGroup : AllowsSpace group)
    (h : WritesAlternatives group ts list) (hSame : Respaced ts us) :
    ∃ list', WritesAlternatives group us list' ∧ listUnplaced list' = listUnplaced list := by
  induction h generalizing us with
  | one hBefore h hAfter =>
      obtain ⟨_, after', rfl, hSame, hAfter'⟩ := hSame.cut
      obtain ⟨before', ts', rfl, hBefore', hSame'⟩ := hSame.cut
      obtain ⟨selector', hSelector, hUnplaced⟩ := h.respaced hGroup hSame'
      exact ⟨_, .one (hBefore.respaced hBefore') hSelector (hAfter.respaced hAfter'),
        by simp [listUnplaced, hUnplaced]⟩
  | more hBefore h hAfter hComma _ ih =>
      obtain ⟨_, _, rfl, hSame, hRest⟩ := hSame.cut
      obtain ⟨_, after', rfl, hSame, hAfter'⟩ := hSame.cut
      obtain ⟨before', ts', rfl, hBefore', hSame'⟩ := hSame.cut
      obtain ⟨front, comma', back, rest', rfl, hAlike, hFront, hBack, hRest'⟩ := hRest.sign_inv
      obtain ⟨selector', hSelector, hUnplaced⟩ := h.respaced hGroup hSame'
      obtain ⟨list', hList, hUnplaced'⟩ := ih hRest'
      rw [← List.append_assoc, List.append_assoc (before' ++ ts')]
      exact ⟨_, .more (hBefore.respaced hBefore') hSelector
        ((hAfter.respaced hAfter').append (.of_spaces hFront)) (hAlike.kind_eq.trans hComma)
        (hList.preceded (.of_spaces hBack)),
        by rw [listUnplaced, listUnplaced, hUnplaced, hUnplaced']⟩

end

/-- White space is allowed at every depth, by induction on the depth. -/
theorem allowsSpace_writesGroup (allowance : Nat) : AllowsSpace (writesGroup allowance) := by
  induction allowance with
  | zero => exact fun _ _ _ h => h.elim
  | succ allowance ih => exact fun _ _ _ h => WritesAlternatives.respaced ih h

/-- With other white space around signs, tokens write a list that agrees with what they wrote. -/
theorem WritesList.respaced {list : SelectorList} (h : WritesList ts list)
    (hSame : Respaced ts us) : ∃ list', WritesList us list' ∧ listUnplaced list' = listUnplaced list := by
  obtain ⟨list', hList, hUnplaced⟩ := allowsSpace_writesGroup (listNesting list + 1) ts us list
    (writesGroup_iff.mpr ⟨h, Nat.lt_succ_self _⟩) hSame
  exact ⟨list', (writesGroup_iff.mp hList).1, hUnplaced⟩

/-- Moved tokens write a list that agrees with what they write where they are. -/
theorem WritesList.moved (n : Nat) {list : SelectorList} (h : WritesList ts list) :
    ∃ list', WritesList (ts.map (Token.moved n)) list' ∧ listUnplaced list' = listUnplaced list :=
  h.respaced (respaced_moved n ts)

end SelectorXPath.Grammar

namespace SelectorXPath.Selector

open SelectorXPath.Grammar SelectorXPath.Text

variable {source source' ws : Text} {limit : Nat} {list : SelectorList}

/-- White space around combinators and commas, and at both ends of a source, is insignificant: with
any put there a source is read as it was. -/
theorem parse_spaced (h : parse source limit = .ok list) (hBlank : ∀ c ∈ ws, isBlank c = true)
    (hSpaced : Spaced ws source source') :
    ∃ list', parse source' limit = .ok list' ∧ listsAgree list list' = true := by
  obtain ⟨tokens, hTokens, hWrites, hNesting⟩ := parse_eq_ok_iff.mp h
  obtain ⟨ts, offset, before, us, after, offset', rfl, hTokens', hBefore, hSame, hAfter⟩ :=
    tokenize_spaced hTokens hBlank hSpaced
  rw [TokenReader.visible_append_eof] at hWrites
  obtain ⟨list', ⟨hList⟩, hUnplaced⟩ := hWrites.respaced hSame.uncommented
  have hAround : WritesList (Mode.uncommented (before ++ us ++ after)) list' := by
    have hAll : Mode.uncommented (before ++ us ++ after) =
        before ++ (Mode.uncommented us ++ after) := by
      rw [← hBefore.uncommented, ← hAfter.uncommented]
      simp [Mode.uncommented]
    rw [hAll]
    exact .intro ((hList.followed (.of_spaces hAfter)).preceded (.of_spaces hBefore))
  refine ⟨list', parse_eq_ok_iff.mpr ⟨_, hTokens', ?_, ?_⟩, ?_⟩
  · rwa [TokenReader.visible_append_eof]
  · rw [← listNesting_unplaced, hUnplaced, listNesting_unplaced]
    exact hNesting
  · rw [listsAgree_iff, hUnplaced]

/-- Inside of parentheses, behind an escape that takes up two of three blanks. -/
theorem parse_spaced_of_escape :
    (parse ":not(a\\41>b)".toList 1).isOk = true ∧
      (∀ c ∈ "\r\n ".toList, isBlank c = true) ∧
      Spaced "\r\n ".toList ":not(a\\41>b)".toList ":not(a\\41\r\n >b)".toList ∧
      ∃ list list', parse ":not(a\\41>b)".toList 1 = .ok list ∧
        parse ":not(a\\41\r\n >b)".toList 1 = .ok list' ∧ listsAgree list list' = true := by
  have hOk : (parse ":not(a\\41>b)".toList 1).isOk = true := by decide +kernel
  have hBlank : ∀ c ∈ "\r\n ".toList, isBlank c = true := List.all_eq_true.mp (by decide)
  have hTokens : tokenize ":not(a\\41>b)".toList =
      .ok ([⟨.pseudoClass, ":not".toList, 0⟩, ⟨.parenthesesStart, ['('], 4⟩,
        ⟨.identifier, "a\\41".toList, 5⟩] ++ ⟨.combinator, ['>'], 9⟩ ::
          [⟨.identifier, ['b'], 10⟩, ⟨.parenthesesEnd, [')'], 11⟩, ⟨.eof, [], 12⟩]) := by
    decide +kernel
  have hSpaced : Spaced "\r\n ".toList ":not(a\\41>b)".toList ":not(a\\41\r\n >b)".toList :=
    .before hTokens (Or.inl rfl)
  obtain ⟨list, hList⟩ := exists_ok_of_isOk hOk
  obtain ⟨list', hList', hSame⟩ := parse_spaced hList hBlank hSpaced
  exact ⟨hOk, hBlank, hSpaced, list, list', hList, hList', hSame⟩

end SelectorXPath.Selector
