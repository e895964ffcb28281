import SelectorXPath.Compile
import SelectorXPath.Proofs.Selector.Compounds
import SelectorXPath.Proofs.Selector.Faults
import SelectorXPath.Proofs.Token.Faults
import SelectorXPath.Proofs.Translate.Faults

/-! Errors point at what they name. Whatever keeps a source from being compiled, if it is located at
all it is located between two characters of the source or at its end: at the character or delimiter
that cannot be scanned, at a token or behind one, or where a compound begins. -/

namespace SelectorXPath

open SelectorXPath.Text SelectorXPath.Translate

/-- From the offset on the source holds the text, and perhaps more. -/
def Text.HoldsAt (source : Text) (offset : Nat) (text : Text) : Prop :=
  ∃ back, fromByte? source offset = some (text ++ back)

namespace Translate

/-- The simple selector is a part of the compound. -/
def Occurrence.StandsIn (o : Occurrence) (compound : Compound) : Prop :=
  o.around = .of compound ∧ o.simple ∈ compound.parts

mutual

/-- What a simple selector is made of stands in the compound around it, or in one that its groups
hold. -/
theorem simple_of_occurrence {o : Occurrence} : ∀ (simple : Simple) (around : Surroundings),
    o ∈ simpleOccurrences around simple →
      o.around = around ∧ o.simple = simple ∨
        ∃ compound ∈ simpleCompounds simple, o.StandsIn compound
  | .not list, around, h | .has list, around, h => Or.inr (compound_of_occurrence list h)
  | .type .., around, h | .universal _, around, h | .class _, around, h | .id _, around, h
  | .attribute _, around, h | .pseudo _, around, h | .nth .., around, h | .contains _, around, h =>
      by
        obtain rfl := List.mem_singleton.mp h
        exact Or.inl ⟨rfl, rfl⟩

/-- The parts of one compound see the same surroundings. -/
theorem part_of_occurrence {o : Occurrence} : ∀ (parts : List Simple) (around : Surroundings),
    o ∈ partsOccurrences around parts →
      o.around = around ∧ o.simple ∈ parts ∨ ∃ compound ∈ partsCompounds parts, o.StandsIn compound
  | [], around, h => by cases h
  | part :: parts, around, h => by
      rcases List.mem_append.mp h with h | h
      · rcases simple_of_occurrence part around h with ⟨hAround, rfl⟩ | ⟨compound, hMem, hStands⟩
        · exact Or.inl ⟨hAround, List.mem_cons_self⟩
        · exact Or.inr ⟨compound, List.mem_append_left _ hMem, hStands⟩
      · rcases part_of_occurrence parts around h with ⟨hAround, hMem⟩ | ⟨compound, hMem, hStands⟩
        · exact Or.inl ⟨hAround, List.mem_cons_of_mem part hMem⟩
        · exact Or.inr ⟨compound, List.mem_append_right _ hMem, hStands⟩

/-- Every simple selector of a compound is a part of this compound or of one inside of it. -/
theorem compoundCompound_of_occurrence {o : Occurrence} : ∀ compound : Compound,
    o ∈ compoundOccurrences compound →
      ∃ inner ∈ compoundCompounds compound, o.StandsIn inner
  | ⟨offset, parts⟩, h => by
      rcases part_of_occurrence parts _ h with hHere | ⟨inner, hMem, hStands⟩
      · exact ⟨⟨offset, parts⟩, List.mem_cons_self, hHere⟩
      · exact ⟨inner, List.mem_cons_of_mem _ hMem, hStands⟩

/-- Every simple selector of a chain is a part of one of its compounds, from the left to the
right. -/
theorem complexCompound_of_occurrence {o : Occurrence} : ∀ selector : Complex,
    o ∈ complexOccurrences selector → ∃ compound ∈ complexCompounds selector, o.StandsIn compound
  | .single compound, h => compoundCompound_of_occurrence compound h
  | .joined left _ right, h => by
      rcases List.mem_append.mp h with h | h
      · obtain ⟨compound, hMem, hStands⟩ := complexCompound_of_occurrence left h
        exact ⟨compound, List.mem_append_left _ hMem, hStands⟩
      · obtain ⟨compound, hMem, hStands⟩ := compoundCompound_of_occurrence right h
        exact ⟨compound, List.mem_append_right _ hMem, hStands⟩

/-- Every simple selector of a list is a part of one of its compounds. -/
theorem compound_of_occurrence {o : Occurrence} : ∀ list : List Complex,
    o ∈ listOccurrences list → ∃ compound ∈ listCompounds list, o.StandsIn compound
  | [], h => by cases h
  | selector :: list, h => by
      rcases List.mem_append.mp h with h | h
      · obtain ⟨compound, hMem, hStands⟩ := complexCompound_of_occurrence selector h
        exact ⟨compound, List.mem_append_left _ hMem, hStands⟩
      · obtain ⟨compound, hMem, hStands⟩ := compound_of_occurrence list h
        exact ⟨compound, List.mem_append_right _ hMem, hStands⟩

end

/-- The compound asks for its type, and it does not begin with a type selector. The error is
reported at its offset and names what asks. -/
def Untyped (compound : Compound) (e : SelectorError) : Prop :=
  compound.typeSelector? = none ∧ ∃ part ∈ compound.parts, ∃ asking, asking? part = some asking ∧
    e = .grammatical
      ⟨compound.offset, .supported (asking ++ " without a type selector".toList)⟩

/-- A list without translation whose error is located holds a compound that asks for its type and
names none. -/
theorem untyped_of_listText {r : Resolver} {scope : Scope} {list : SelectorList}
    {e : SelectorError} {offset : Nat} (h : listText r scope list = .error e)
    (hOffset : e.offset? = some offset) :
    ∃ compound ∈ listCompounds list, Untyped compound e ∧ compound.offset = offset := by
  have hFirst := error?_listText r scope list
  rw [h] at hFirst
  obtain ⟨o, hMem, hFault⟩ := List.exists_of_findSome?_eq_some hFirst.symm
  obtain ⟨compound, hCompound, hAround, hPart⟩ := compound_of_occurrence list hMem
  have hLack : o.lack? = some e := by
    rw [Occurrence.fault?, Option.or_eq_some_iff] at hFault
    rcases hFault with hLack | ⟨-, hFault⟩
    · exact hLack
    · unfold qualifierFault? at hFault
      split at hFault
      · rename_i key _
        unfold Resolver.namespaceOf at hFault
        split at hFault
        · cases hFault
        · split at hFault <;> cases hFault
          cases hOffset
      · cases hFault
  unfold Occurrence.lack? at hLack
  split at hLack
  · rename_i asking hAsking hType
    cases hLack
    cases hOffset
    rw [hAround] at hType ⊢
    exact ⟨compound, hCompound, ⟨hType, _, hPart, asking, hAsking, rfl⟩, rfl⟩
  · cases hLack

end Translate

/-- The error of a compilation points at what it names. Its offset lies inside of the source or at
its end, and between two characters. What cannot be scanned stands there; what has no translation
begins with a colon there; and a compound that asks for its type begins there. -/
structure SelectorError.Located (source : Text) (limit : Nat) (e : SelectorError) (offset : Nat) :
    Prop where
  inside : offset ≤ byteLength source
  boundary : source.HoldsAt offset []
  lexical : ∀ fault, e = .lexical ⟨offset, fault⟩ →
    fault.named ≠ [] ∧ source.HoldsAt offset fault.named
  unsupported : ∀ written, Selector.parse source limit = .error e →
    e = .grammatical ⟨offset, .supported written⟩ → source.HoldsAt offset [':']
  untyped : ∀ list, Selector.parse source limit = .ok list →
    ∃ compound ∈ listCompounds list, Untyped compound e ∧ compound.offset = offset

namespace Text

variable {source text : Text} {offset : Nat}

/-- Where the source holds a text it can be cut in two. -/
theorem HoldsAt.boundary (h : source.HoldsAt offset text) : source.HoldsAt offset [] := by
  obtain ⟨back, hBack⟩ := h
  exact ⟨text ++ back, hBack⟩

/-- Such an offset lies inside of the source or at its end. -/
theorem HoldsAt.le (h : source.HoldsAt offset text) : offset ≤ byteLength source := by
  obtain ⟨back, hBack⟩ := h
  obtain ⟨front, rfl, rfl⟩ := fromByte?_eq_some_iff.mp hBack
  rw [byteLength_append]
  exact Nat.le_add_right _ _

/-- The end of the source is an offset at which nothing more has to stand. -/
theorem holdsAt_end (source : Text) : source.HoldsAt (byteLength source) [] :=
  ⟨[], fromByte?_eq_some_iff.mpr ⟨source, by simp, rfl⟩⟩

end Text

/-- The tokens of a source stand in it. -/
theorem Selector.standsAt_of_tokenize {source : Text} {front : List Token} {offset : Nat}
    (h : tokenize source = .ok (front ++ [⟨.eof, [], offset⟩])) :
    offset = byteLength source ∧
      ∀ t ∈ Mode.uncommented front, t.StandsAt source t.offset ∧ t.Recognized := by
  obtain ⟨front', s, hPasses, hRest, -, hTokens⟩ := Scan.passes_of_run h
  obtain ⟨rfl, hEnd⟩ := List.append_inj' hTokens rfl
  refine ⟨?_, fun t ht => hPasses.standsAt (List.mem_of_mem_filter ht)⟩
  have hOffset : offset = s.offset := by simpa using hEnd
  have hText : source = front.flatMap Token.text := hPasses.text_eq hRest
  rw [hOffset, hPasses.offset_eq, hText]
  exact Nat.zero_add _

namespace Selector

variable {source : Text} {limit : Nat} {e : SelectorError} {offset : Nat}

/-- Errors of the grammar. -/
theorem holdsAt_of_standsIn {fault : SyntaxError} {tokens : List Token}
    (hTokens : ∀ t ∈ tokens, t.StandsAt source t.offset ∧ t.Recognized)
    (h : fault.StandsIn (byteLength source) tokens) :
    source.HoldsAt fault.offset [] ∧
      ∀ written, fault.expected = .supported written → source.HoldsAt fault.offset [':'] := by
  have hSupported (hOther : fault.expected.isUnsupported = false) :
      ∀ written, fault.expected = .supported written → source.HoldsAt fault.offset [':'] := by
    intro written hSame
    rw [hSame] at hOther
    cases hOther
  cases h with
  | atEnd hExpected =>
      exact ⟨holdsAt_end source, hSupported hExpected⟩
  | before ht hExpected =>
      obtain ⟨back, hText, -⟩ := (hTokens _ ht).1.text_eq
      exact ⟨HoldsAt.boundary ⟨back, hText⟩, hSupported hExpected⟩
  | behind ht hExpected =>
      obtain ⟨back, -, hStop⟩ := (hTokens _ ht).1.text_eq
      exact ⟨⟨back, hStop⟩, hSupported hExpected⟩
  | @unsupported t written ht hKind =>
      obtain ⟨hStands, hRecognized⟩ := hTokens t ht
      obtain ⟨back, hText, -⟩ := hStands.text_eq
      have hColon : [':'] <+: t.kind.sign := by
        rcases hKind with hKind | hKind <;> rw [hKind] <;> decide
      obtain ⟨more, hMore⟩ := hColon.trans hRecognized.sign_prefix
      have hHolds : source.HoldsAt t.offset [':'] :=
        ⟨more ++ back, by rw [hText, ← hMore, List.append_assoc]⟩
      exact ⟨hHolds.boundary, fun _ _ => hHolds⟩

/-- Errors of the scan and of the grammar are located. -/
theorem located_of_parse (h : parse source limit = .error e) (hOffset : e.offset? = some offset) :
    e.Located source limit offset := by
  suffices hHolds : source.HoldsAt offset [] ∧
      (∀ fault, e = .lexical ⟨offset, fault⟩ →
        fault.named ≠ [] ∧ source.HoldsAt offset fault.named) ∧
      ∀ written, e = .grammatical ⟨offset, .supported written⟩ → source.HoldsAt offset [':'] from
    ⟨hHolds.1.le, hHolds.1, hHolds.2.1, fun written _ => hHolds.2.2 written,
      fun list hList => by rw [h] at hList; cases hList⟩
  cases hTokens : tokenize source with
  | error fault =>
      rw [parse, hTokens] at h
      obtain rfl := Except.error.inj h
      obtain ⟨hSome, hNamed⟩ := named_of_tokenize hTokens
      unfold scanError at hOffset ⊢
      split at hOffset
      · cases hOffset
        exact ⟨holdsAt_end source, by simp, by simp⟩
      · cases hOffset
        exact ⟨holdsAt_end source, by simp, by simp⟩
      · cases hOffset
        refine ⟨HoldsAt.boundary hNamed, ?_, by simp⟩
        intro named hSame
        have hFault : fault.fault = named := by rw [SelectorError.lexical.inj hSame]
        exact hFault ▸ ⟨hSome, hNamed⟩
  | ok tokens =>
      obtain ⟨front, stop, rfl, -⟩ := Scan.scanned_of_run (Scan.start_stringsOnTop source) hTokens
      obtain ⟨hStop, hStands⟩ := standsAt_of_tokenize hTokens
      obtain ⟨fault, rfl, hFault⟩ := standsIn_of_parse hTokens h
      cases hOffset
      rw [hStop] at hFault
      obtain ⟨hBoundary, hColon⟩ := holdsAt_of_standsIn hStands hFault
      exact ⟨hBoundary, by simp, fun written hSame =>
        hColon written (by rw [SelectorError.grammatical.inj hSame])⟩

end Selector

/-- Whatever the source, the namespaces, the scope and the limit, an error that is located is located
faithfully. -/
theorem compile_error_located {source : Text} {r : Resolver} {options : Options}
    {e : SelectorError} {offset : Nat} (h : compile source r options = .error e)
    (hOffset : e.offset? = some offset) : e.Located source options.limit offset := by
  unfold compile at h
  cases hParse : Selector.parse source options.limit with
  | error fault =>
      rw [hParse] at h
      obtain rfl := Except.error.inj h
      exact Selector.located_of_parse hParse hOffset
  | ok list =>
      rw [hParse] at h
      obtain ⟨compound, hMem, hUntyped, hSame⟩ := untyped_of_listText h hOffset
      obtain ⟨tokens, hTokens, hWritten, -⟩ := Selector.parse_eq_ok_iff.mp hParse
      obtain ⟨front, stop, rfl, -⟩ := Scan.scanned_of_run (Scan.start_stringsOnTop source) hTokens
      rw [TokenReader.visible_append_eof] at hWritten
      obtain ⟨t, ht, hToken⟩ :=
        (Grammar.locatedIn_of_writesList hWritten).exists_token hMem
      obtain ⟨back, hText, -⟩ := ((Selector.standsAt_of_tokenize hTokens).2 t ht).1.text_eq
      have hHolds : source.HoldsAt offset t.text := ⟨back, by rw [← hSame, ← hToken, hText]⟩
      have hShape := hUntyped
      obtain ⟨-, -, -, asking, -, rfl⟩ := hShape
      refine ⟨hHolds.le, hHolds.boundary, by simp, fun written hError => ?_, fun list' hList => ?_⟩
      · rw [hParse] at hError
        cases hError
      · rw [hParse] at hList
        cases hList
        exact ⟨compound, hMem, hUntyped, hSame⟩

/-- Characters of two and of three bytes, and behind them a compound that asks for its type. -/
theorem compile_error_located_of_untyped :
    ∃ e, compile "é,€ .b:first-of-type".toList Registry.empty.toResolver {} = .error e ∧
      e.offset? = some 7 ∧ e.Located "é,€ .b:first-of-type".toList Selector.defaultLimit 7 := by
  have hOffset : error? (compile "é,€ .b:first-of-type".toList Registry.empty.toResolver {}) >>=
      SelectorError.offset? = some 7 := by decide +kernel
  cases hCompile : compile "é,€ .b:first-of-type".toList Registry.empty.toResolver {} with
  | ok text =>
      rw [hCompile] at hOffset
      cases hOffset
  | error e =>
      rw [hCompile] at hOffset
      exact ⟨e, rfl, hOffset, compile_error_located hCompile hOffset⟩

end SelectorXPath
