import SelectorXPath.Proofs.Selector.Soundness
import SelectorXPath.Proofs.Token.Recognized

/-! The language of the parser. Derivations whose groups nest at most so deep are counted in two
ways: by the depth of what they write, and by the allowance that the parser goes by. The two counts
agree, so the parser of the tokens of a source accepts exactly the lists that the grammar derives
and that do not nest deeper than the limit. -/

namespace SelectorXPath

namespace Grammar

section

variable {group : List Token → SelectorList → Prop} {n : Nat}

/-- Groups below a bound on their nesting derive the parts that stay within the bound. -/
theorem writesPart_below_iff {ts : List Token} {simple : Simple} :
    WritesPart (fun ts list => group ts list ∧ listNesting list < n) ts simple ↔
      WritesPart group ts simple ∧ simple.nesting ≤ n := by
  constructor
  · intro h
    cases h with
    | className h => exact ⟨.className h, Nat.zero_le n⟩
    | idName h => exact ⟨.idName h, Nat.zero_le n⟩
    | attributeTest h => exact ⟨.attributeTest h, Nat.zero_le n⟩
    | pseudo hKind hName => exact ⟨.pseudo hKind hName, Nat.zero_le n⟩
    | nth hEnclosed h => exact ⟨.nth hEnclosed h, Nat.zero_le n⟩
    | not hEnclosed h => exact ⟨.not hEnclosed h.1, h.2⟩
    | has hEnclosed h => exact ⟨.has hEnclosed h.1, h.2⟩
    | contains hEnclosed h => exact ⟨.contains hEnclosed h, Nat.zero_le n⟩
  · rintro ⟨h, hNesting⟩
    cases h with
    | className h => exact .className h
    | idName h => exact .idName h
    | attributeTest h => exact .attributeTest h
    | pseudo hKind hName => exact .pseudo hKind hName
    | nth hEnclosed h => exact .nth hEnclosed h
    | not hEnclosed h => exact .not hEnclosed ⟨h, hNesting⟩
    | has hEnclosed h => exact .has hEnclosed ⟨h, hNesting⟩
    | contains hEnclosed h => exact .contains hEnclosed h

/-- A bound on what every group holds is a bound on the nesting of the parts, and can be taken out
of the derivation. -/
theorem writesParts_below_iff {ts : List Token} {simples : List Simple} :
    WritesParts (fun ts list => group ts list ∧ listNesting list < n) ts simples ↔
      WritesParts group ts simples ∧ partsNesting simples ≤ n := by
  constructor
  · intro h
    induction h with
    | nil => exact ⟨.nil, Nat.zero_le n⟩
    | cons h _ ih =>
        obtain ⟨hPart, hNesting⟩ := writesPart_below_iff.mp h
        exact ⟨.cons hPart ih.1, Nat.max_le.mpr ⟨hNesting, ih.2⟩⟩
  · rintro ⟨h, hNesting⟩
    induction h with
    | nil => exact .nil
    | cons h _ ih =>
        obtain ⟨hPart, hRest⟩ := Nat.max_le.mp hNesting
        exact .cons (writesPart_below_iff.mpr ⟨h, hPart⟩) (ih hRest)

/-- Names hold no groups. -/
theorem nesting_ofName (name : Qualifier × Option Text) :
    (Parser.Simple.ofName name).nesting = 0 := by
  obtain ⟨qualifier, _ | name⟩ := name <;> rfl

/-- A bound on the nesting of a compound can be taken out in the same way, since names add
nothing. -/
theorem writesCompound_below_iff {ts : List Token} {compound : Compound} :
    WritesCompound (fun ts list => group ts list ∧ listNesting list < n) ts compound ↔
      WritesCompound group ts compound ∧ compound.nesting ≤ n := by
  constructor
  · intro h
    cases h with
    | named hName h =>
        obtain ⟨hParts, hNesting⟩ := writesParts_below_iff.mp h
        exact ⟨.named hName hParts, by simpa [Compound.nesting, partsNesting, nesting_ofName]⟩
    | unnamed h hSome =>
        obtain ⟨hParts, hNesting⟩ := writesParts_below_iff.mp h
        exact ⟨.unnamed hParts hSome, hNesting⟩
  · rintro ⟨h, hNesting⟩
    cases h with
    | named hName h =>
        refine .named hName (writesParts_below_iff.mpr ⟨h, ?_⟩)
        simpa [Compound.nesting, partsNesting, nesting_ofName] using hNesting
    | unnamed h hSome => exact .unnamed (writesParts_below_iff.mpr ⟨h, hNesting⟩) hSome

theorem writesComplex_below_iff {ts : List Token} {complex : Complex} :
    WritesComplex (fun ts list => group ts list ∧ listNesting list < n) ts complex ↔
      WritesComplex group ts complex ∧ complex.nesting ≤ n := by
  constructor
  · intro h
    induction h with
    | single h =>
        obtain ⟨hCompound, hNesting⟩ := writesCompound_below_iff.mp h
        exact ⟨.single hCompound, hNesting⟩
    | joined _ hCombinator hRight ih =>
        obtain ⟨hCompound, hNesting⟩ := writesCompound_below_iff.mp hRight
        exact ⟨.joined ih.1 hCombinator hCompound, Nat.max_le.mpr ⟨ih.2, hNesting⟩⟩
  · rintro ⟨h, hNesting⟩
    induction h with
    | single h => exact .single (writesCompound_below_iff.mpr ⟨h, hNesting⟩)
    | joined _ hCombinator hRight ih =>
        obtain ⟨hLeft, hCompound⟩ := Nat.max_le.mp hNesting
        exact .joined (ih hLeft) hCombinator (writesCompound_below_iff.mpr ⟨hRight, hCompound⟩)

/-- The nesting of a list is that of its deepest selector, and its bound is one for every group. -/
theorem writesAlternatives_below_iff {ts : List Token} {list : SelectorList} :
    WritesAlternatives (fun ts list => group ts list ∧ listNesting list < n) ts list ↔
      WritesAlternatives group ts list ∧ listNesting list ≤ n := by
  constructor
  · intro h
    induction h with
    | one hBefore h hAfter =>
        obtain ⟨hComplex, hNesting⟩ := writesComplex_below_iff.mp h
        exact ⟨.one hBefore hComplex hAfter, Nat.max_le.mpr ⟨hNesting, Nat.zero_le n⟩⟩
    | more hBefore h hAfter hComma _ ih =>
        obtain ⟨hComplex, hNesting⟩ := writesComplex_below_iff.mp h
        exact ⟨.more hBefore hComplex hAfter hComma ih.1, Nat.max_le.mpr ⟨hNesting, ih.2⟩⟩
  · rintro ⟨h, hNesting⟩
    induction h with
    | one hBefore h hAfter =>
        obtain ⟨hComplex, -⟩ := Nat.max_le.mp hNesting
        exact .one hBefore (writesComplex_below_iff.mpr ⟨h, hComplex⟩) hAfter
    | more hBefore h hAfter hComma _ ih =>
        obtain ⟨hComplex, hRest⟩ := Nat.max_le.mp hNesting
        exact .more hBefore (writesComplex_below_iff.mpr ⟨h, hComplex⟩) hAfter hComma (ih hRest)

end

/-- What parentheses hold is written as the list around them is. -/
theorem writesList_iff {ts : List Token} {list : SelectorList} :
    WritesList ts list ↔ WritesAlternatives WritesList ts list :=
  ⟨fun ⟨h⟩ => h, .intro⟩

/-- A part alone is a list. -/
theorem WritesList.of_part {ts : List Token} {part : Simple} (h : WritesPart WritesList ts part) :
    WritesList ts [.single ⟨offsetOf ts, [part]⟩] := by
  have hParts : WritesParts WritesList ts [part] := by
    have hCons := WritesParts.cons h .nil
    rwa [List.append_nil] at hCons
  have hSelector := WritesAlternatives.one Blank.nil (.single (.unnamed hParts (by simp))) Blank.nil
  rw [List.nil_append, List.append_nil] at hSelector
  exact .intro hSelector

/-- A list of a single part, which is no name of an element, is that part between blanks. -/
theorem WritesList.exists_part {ts : List Token} {part : Simple} {offset : Nat}
    (h : WritesList ts [.single ⟨offset, [part]⟩])
    (hName : ∀ name, Parser.Simple.ofName name ≠ part) :
    ∃ before ps after, ts = before ++ ps ++ after ∧ Blank before ∧ Blank after ∧
      offset = offsetOf ps ∧ WritesPart WritesList ps part := by
  rcases writesList_iff.mp h with ⟨hBefore, hComplex, hAfter⟩ | ⟨-, -, -, -, hRest⟩
  · cases hComplex with
    | single hCompound =>
        generalize hWhole : (⟨offset, [part]⟩ : Compound) = compound at hCompound
        cases hCompound with
        | named =>
            obtain ⟨-, hParts⟩ := Compound.mk.inj hWhole
            exact absurd (List.cons.inj hParts).1.symm (hName _)
        | unnamed hParts =>
            obtain ⟨hOffset, rfl⟩ := Compound.mk.inj hWhole
            cases hParts with
            | cons hPart hNone =>
                cases hNone
                rw [List.append_nil] at hOffset ⊢
                exact ⟨_, _, _, rfl, hBefore, hAfter, hOffset, hPart⟩
  · cases hRest

/-- The allowance of the parser is a strict bound on the nesting inside a group. -/
theorem writesGroup_iff {allowance : Nat} {ts : List Token} {list : SelectorList} :
    writesGroup allowance ts list ↔ WritesList ts list ∧ listNesting list < allowance := by
  induction allowance generalizing ts list with
  | zero => simp [writesGroup]
  | succ allowance ih =>
      have hGroup : writesGroup allowance =
          fun ts list => WritesList ts list ∧ listNesting list < allowance := by
        funext ts list
        exact propext ih
      rw [writesGroup, hGroup, writesAlternatives_below_iff, ← writesList_iff, Nat.lt_succ_iff]

end Grammar

namespace TokenReader

open SelectorXPath.Grammar

/-- The tokens that a reader sees: comments and the mark of the end are not among them. -/
def visible (tokens : List Token) : List Token :=
  withoutEnd (tokens.filter (fun token => !token.kind.isComment))

/-- Reading scanned tokens succeeds at their end, and with what the grammar derives from all of
them. -/
theorem next_eq_ok_iff {r : TokenReader} {list : SelectorList} (hScanned : Scanned r.tokens) :
    r.next.1 = .ok list ↔
      WritesList r.tokens list ∧ listNesting list ≤ r.setting.limit - r.depth := by
  have hGroups := Parser.groups_reads r.setting (r.setting.limit - r.depth)
  have hGroup : WritesAlternatives (writesGroup (r.setting.limit - r.depth)) r.tokens list ↔
      WritesList r.tokens list ∧ listNesting list ≤ r.setting.limit - r.depth := by
    rw [← Nat.lt_succ_iff, ← writesGroup_iff]
    rfl
  rw [← hGroup]
  constructor
  · intro h
    unfold next outcome at h
    split at h
    · rename_i read rest hRead
      obtain rfl := Except.ok.inj h
      obtain ⟨hNext, ts, hTokens, hWritten⟩ := Parser.list_sound hGroups hRead
      cases rest with
      | nil =>
          rw [List.append_nil] at hTokens
          exact hTokens ▸ hWritten
      | cons t rest =>
          exact absurd hNext (hScanned.recognized t (by simp [hTokens])).kind_ne_eof
    · cases h
  · intro h
    have hRead : r.outcome = .ok list [] := by
      rw [outcome, ← List.append_nil r.tokens]
      exact Parser.list_of_writes hGroups hScanned h (Or.inl rfl) rfl
    simp [next, hRead]

/-- Of scanned tokens a reader sees all but the comments and the mark of the end. -/
theorem visible_append_eof (front : List Token) (offset : Nat) :
    visible (front ++ [⟨.eof, [], offset⟩]) =
      front.filter (fun token => !token.kind.isComment) := by
  simp [visible, withoutEnd, Token.Kind.isComment]

/-- What a scan returns is what a reader sees, with comments put back and the mark of the end
behind. -/
theorem visible_of_tokenize {source : Text} {tokens : List Token}
    (h : tokenize source = .ok tokens) :
    (∃ offset, tokens.filter (fun token => !token.kind.isComment) =
      visible tokens ++ [⟨.eof, [], offset⟩]) ∧ Scanned (visible tokens) := by
  obtain ⟨front, offset, rfl, hFront, -⟩ :=
    Scan.scanned_of_run (Scan.start_stringsOnTop source) h
  rw [visible_append_eof]
  exact ⟨⟨offset, by simp [Token.Kind.isComment]⟩, hFront⟩

/-- The reader of the tokens of a source reads what the grammar derives from those it sees. -/
theorem start_next_of_tokenize {source : Text} {tokens : List Token}
    (h : tokenize source = .ok tokens) (limit : Nat) (list : SelectorList) :
    (start limit tokens).next.1 = .ok list ↔
      WritesList (visible tokens) list ∧ listNesting list ≤ limit :=
  next_eq_ok_iff (r := start limit tokens) (visible_of_tokenize h).2

/-- For the tokens of any source and any limit, a new reader returns a list if and only if the
tokens without comments are a derivation of that list, followed by the mark of the end, and the
list nests at most as deep as the limit allows. -/
theorem start_next_eq_ok_iff {source : Text} {tokens : List Token}
    (h : tokenize source = .ok tokens) (limit : Nat) (list : SelectorList) :
    (start limit tokens).next.1 = .ok list ↔
      (∃ ts stop, tokens.filter (fun token => !token.kind.isComment) = ts ++ [stop] ∧
        stop.kind = .eof ∧ WritesList ts list) ∧ listNesting list ≤ limit := by
  obtain ⟨⟨offset, hTokens⟩, -⟩ := visible_of_tokenize h
  rw [start_next_of_tokenize h]
  constructor
  · rintro ⟨hWritten, hNesting⟩
    exact ⟨⟨visible tokens, _, hTokens, rfl, hWritten⟩, hNesting⟩
  · rintro ⟨⟨ts, stop, hSame, -, hWritten⟩, hNesting⟩
    rw [hTokens] at hSame
    obtain ⟨rfl, -⟩ := List.append_inj' hSame rfl
    exact ⟨hWritten, hNesting⟩

/-- A source with a comment, with white space in all its roles, and with a group. -/
theorem start_next_eq_ok_iff_of_group :
    ∃ tokens, tokenize ":not(a , .b)>*|c/**/ #d".toList = .ok tokens ∧
      ∀ list, (start 1 tokens).next.1 = .ok list ↔
        (∃ ts stop, tokens.filter (fun token => !token.kind.isComment) = ts ++ [stop] ∧
          stop.kind = .eof ∧ WritesList ts list) ∧ listNesting list ≤ 1 := by
  have hScans : (tokenize ":not(a , .b)>*|c/**/ #d".toList).isOk = true := by decide +kernel
  cases h : tokenize ":not(a , .b)>*|c/**/ #d".toList with
  | error e =>
      rw [h] at hScans
      cases hScans
  | ok tokens => exact ⟨tokens, rfl, start_next_eq_ok_iff h 1⟩

end TokenReader

namespace Selector

open SelectorXPath.Grammar

/-- Giving errors another form makes no success of them. -/
theorem mapError_eq_ok_iff {ε ε' α : Type} {f : ε → ε'} {e : Except ε α} {a : α} :
    e.mapError f = .ok a ↔ e = .ok a := by
  cases e <;> simp [Except.mapError]

/-- A source is read as a list if it is scanned, its tokens write the list, and the list stays
within the limit. -/
theorem parse_eq_ok_iff {source : Text} {limit : Nat} {list : SelectorList} :
    parse source limit = .ok list ↔
      ∃ tokens, tokenize source = .ok tokens ∧ WritesList (TokenReader.visible tokens) list ∧
        listNesting list ≤ limit := by
  constructor
  · intro h
    unfold parse at h
    split at h
    · cases h
    · rename_i tokens hTokens
      exact ⟨tokens, hTokens,
        (TokenReader.start_next_of_tokenize hTokens limit list).mp (mapError_eq_ok_iff.mp h)⟩
  · rintro ⟨tokens, hTokens, hBoth⟩
    rw [parse, hTokens]
    exact mapError_eq_ok_iff.mpr
      ((TokenReader.start_next_of_tokenize hTokens limit list).mpr hBoth)

end Selector

end SelectorXPath
