import SelectorXPath.Proofs.Errors

/-! Where the compounds of a source are located. In the order of the source their offsets increase,
since the tokens at which they begin follow one another. The token at the offset of a compound is
the first one of its first part, so it is no white space, no part of a comment and no combinator. -/

namespace SelectorXPath

open SelectorXPath.Text

namespace Grammar

variable {t : Token} {ts : List Token} {part : Simple} {compound : Compound}

/-- What a compound may begin with: a name, or a class, an id, an attribute or a pseudo-class. -/
inductive WritesFirst (ts : List Token) : Simple → Prop where
  | name {name : Qualifier × Option Text} (h : WritesName ts name) :
      WritesFirst ts (Parser.Simple.ofName name)
  | part {part : Simple} (h : WritesPart WritesList ts part) : WritesFirst ts part

/-- A compound is never empty, and the first of the tokens that write it writes its first part. -/
theorem exists_first_of_writesCompound (h : WritesCompound WritesList ts compound) :
    ∃ t run part parts, t :: run <+: ts ∧ compound.parts = part :: parts ∧
      WritesFirst (t :: run) part := by
  cases h with
  | @named ts more name parts hName _ =>
      obtain ⟨t, run, rfl⟩ := List.exists_cons_of_ne_nil (Parser.writesName_ne_nil hName)
      exact ⟨t, run, _, parts, List.prefix_append _ _, rfl, .name hName⟩
  | unnamed h hSome =>
      cases h with
      | nil => exact absurd rfl hSome
      | @cons ts more part parts h _ =>
          obtain ⟨t, run, rfl⟩ := List.exists_cons_of_ne_nil (Parser.writesPart_ne_nil h)
          exact ⟨t, run, part, parts, List.prefix_append _ _, rfl, .part h⟩

/-- What begins a part has a meaning of its own, and does not join compounds. -/
theorem WritesFirst.kind (h : WritesFirst (t :: ts) part) :
    t.kind.isTrivia = false ∧ t.kind ≠ .combinator := by
  cases h with
  | name h =>
      cases h with
      | plain h | everywhere h | qualified h =>
          rcases h with h | h <;>
            · rw [h]
              decide
      | unqualified h =>
          rw [h]
          decide
  | part h =>
      have hKind : t.kind = .classSelector ∨ t.kind = .idSelector ∨ t.kind = .attributeStart ∨
          t.kind = .pseudoClass := Parser.nextKind_of_writesPart h []
      rcases hKind with h | h | h | h <;>
        · rw [h]
          decide

end Grammar

open SelectorXPath.Grammar

/-- A compound is located at the first of the tokens that its first part is written with. There the
source goes on with the text of that token. -/
structure Compound.Located (source : Text) (tokens : List Token) (compound : Compound) : Prop where
  inside : compound.offset < byteLength source
  boundary : source.HoldsAt compound.offset []
  first : ∃ t run part parts, t ∈ tokens ∧ t :: run <:+: TokenReader.visible tokens ∧
    t.offset = compound.offset ∧ source.HoldsAt compound.offset t.text ∧
    t.kind.isTrivia = false ∧ t.kind ≠ .combinator ∧
    compound.parts = part :: parts ∧ WritesFirst (t :: run) part

/-- The tokens in front of the end of a source stand one behind the other. -/
theorem pairwise_offset_of_tokenize {source : Text} {tokens : List Token}
    (h : tokenize source = .ok tokens) :
    ((TokenReader.visible tokens).map Token.offset).Pairwise (· < ·) := by
  obtain ⟨front, s, hPasses, -, -, rfl⟩ := Scan.passes_of_run h
  have hFront : front.Pairwise fun t u => t.offset < u.offset :=
    (pairwise_of_adjacent hPasses.adjacent).imp_of_mem fun ht _ hStop =>
      Nat.lt_of_lt_of_le (Token.offset_lt_stop (hPasses.text_ne_nil_of_mem _ ht)) hStop
  rw [TokenReader.visible_append_eof]
  exact List.pairwise_map.mpr (hFront.sublist List.filter_sublist)

/-- The compounds of a source are located, in the order of the source, one behind the other. -/
theorem parse_compounds_located {source : Text} {limit : Nat} {list : SelectorList}
    (h : Selector.parse source limit = .ok list) :
    ((listCompounds list).map Compound.offset).Pairwise (· < ·) ∧
      ∃ tokens, tokenize source = .ok tokens ∧
        ∀ compound ∈ listCompounds list, compound.Located source tokens := by
  obtain ⟨tokens, hTokens, hWritten, -⟩ := Selector.parse_eq_ok_iff.mp h
  refine ⟨(pairwise_offset_of_tokenize hTokens).sublist (locatedIn_of_writesList hWritten), tokens,
    hTokens, fun compound hMem => ?_⟩
  obtain ⟨front, s, hPasses, hRest, -, rfl⟩ := Scan.passes_of_run hTokens
  rw [TokenReader.visible_append_eof] at hWritten
  obtain ⟨t, run, hRun, hCompound⟩ := (foundIn_of_writesList hWritten).exists_run hMem
  obtain ⟨t', run', part, parts, hPrefix, hParts, hFirst⟩ :=
    exists_first_of_writesCompound hCompound
  obtain ⟨rfl, hInside⟩ := List.cons_prefix_cons.mp hPrefix
  have hOffset : compound.offset = t'.offset := offset_of_writesCompound hCompound
  have hMember : t' ∈ front := List.mem_of_mem_filter (hRun.subset List.mem_cons_self)
  obtain ⟨-, hSome, back, hText, hStop⟩ := (hPasses.standsAt hMember).1
  obtain ⟨hTrivia, hCombinator⟩ := hFirst.kind
  have hHolds : source.HoldsAt compound.offset t'.text := ⟨back, by rw [hOffset, hText]⟩
  refine ⟨?_, hHolds.boundary, t', run', part, parts, List.mem_append_left _ hMember, ?_,
    hOffset.symm, hHolds, hTrivia, hCombinator, hParts, hFirst⟩
  · have hEnd : source.HoldsAt t'.stop back := ⟨[], by rwa [List.append_nil]⟩
    rw [hOffset]
    exact Nat.lt_of_lt_of_le (Token.offset_lt_stop hSome) hEnd.le
  · rw [TokenReader.visible_append_eof]
    exact hPrefix.isInfix.trans hRun

/-- Compounds inside of groups and of chains in them, with comments and white space in between and a
character of two bytes in front. -/
theorem parse_compounds_located_of_nested :
    (Selector.parse "é :not(a/**/ > .b, |c:has(d)) ,\t*|e".toList 2).isOk = true ∧
      ∃ list, Selector.parse "é :not(a/**/ > .b, |c:has(d)) ,\t*|e".toList 2 = .ok list ∧
        ((listCompounds list).map Compound.offset).Pairwise (· < ·) ∧
        ∃ tokens, tokenize "é :not(a/**/ > .b, |c:has(d)) ,\t*|e".toList = .ok tokens ∧
          ∀ compound ∈ listCompounds list,
            compound.Located "é :not(a/**/ > .b, |c:has(d)) ,\t*|e".toList tokens := by
  have hOk : (Selector.parse "é :not(a/**/ > .b, |c:has(d)) ,\t*|e".toList 2).isOk = true := by
    decide +kernel
  obtain ⟨list, hList⟩ := exists_ok_of_isOk hOk
  exact ⟨hOk, list, hList, parse_compounds_located hList⟩

end SelectorXPath
