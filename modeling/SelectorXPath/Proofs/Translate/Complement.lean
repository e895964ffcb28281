import SelectorXPath.Compile
import SelectorXPath.Proofs.Selector.Respaced
import SelectorXPath.Proofs.Token.Nested
import SelectorXPath.Proofs.Selector.Pieces
import SelectorXPath.Proofs.Translate.Reversal
import SelectorXPath.Proofs.Translate.Unplaced

/-! What a source selects in a document, and what it selects in `:not()`, are the two halves of the
elements of the document. -/

namespace SelectorXPath

open SelectorXPath.Text SelectorXPath.XPath SelectorXPath.Grammar

namespace Selector

variable {source : Text} {limit : Nat} {list : SelectorList}

/-- The limit decides whether a source is read, but not as what. -/
theorem parse_eq_ok_iff_of_parse (h : parse source limit = .ok list) (limit' : Nat)
    (list' : SelectorList) :
    parse source limit' = .ok list' ↔ list' = list ∧ listNesting list ≤ limit' := by
  obtain ⟨tokens, hTokens, hWritten, hNesting⟩ := parse_eq_ok_iff.mp h
  constructor
  · intro h'
    obtain ⟨tokens', hTokens', hWritten', hNesting'⟩ := parse_eq_ok_iff.mp h'
    have hFirst : parse source (max limit limit') = .ok list :=
      parse_eq_ok_iff.mpr ⟨tokens, hTokens, hWritten, by omega⟩
    have hSecond : parse source (max limit limit') = .ok list' :=
      parse_eq_ok_iff.mpr ⟨tokens', hTokens', hWritten', by omega⟩
    rw [hFirst] at hSecond
    cases hSecond
    exact ⟨rfl, hNesting'⟩
  · rintro ⟨rfl, hNesting'⟩
    exact parse_eq_ok_iff.mpr ⟨tokens, hTokens, hWritten, hNesting'⟩

/-- A source that is read can be read inside of `:not()`, one level deeper. -/
theorem parse_not (h : parse source limit = .ok list) :
    ∃ offset list', listUnplaced list' = listUnplaced list ∧
      parse (":not(".toList ++ source ++ ")".toList) (limit + 1) =
        .ok [.single ⟨offset, [.not list']⟩] := by
  obtain ⟨tokens, hTokens, hWritten, hNesting⟩ := parse_eq_ok_iff.mp h
  obtain ⟨front, stop, rfl, hReads⟩ := Mode.reads_of_tokenize [] hTokens
  rw [TokenReader.visible_append_eof] at hWritten
  have hInside : Mode.argument.Reads source [')'] fun ts =>
      ∃ list', WritesList ts list' ∧ listUnplaced list' = listUnplaced list := by
    refine hReads.mono ?_
    rintro _ ⟨n, rfl⟩
    exact hWritten.moved n
  obtain ⟨ts, offset, hScanned, t, start, us, close, hVisible, hEnclosed, list', hList, hSame⟩ :=
    tokenize_of_reads (Mode.reads_functional .not (Or.inl rfl) hInside)
  refine ⟨t.offset, list', hSame, parse_eq_ok_iff.mpr ⟨_, hScanned, ?_, ?_⟩⟩
  · have hFilter : ts.filter (fun token => !token.kind.isComment) = t :: start :: (us ++ [close]) :=
      hVisible
    rw [TokenReader.visible_append_eof, hFilter]
    exact .of_part (.not hEnclosed hList)
  · have hSame' : listNesting list' = listNesting list := by
      rw [← listNesting_unplaced, hSame, listNesting_unplaced]
    simpa [listNesting, Complex.nesting, Compound.nesting, partsNesting, Simple.nesting, hSame']
      using hNesting

end Selector

/-- Whether a source that is read can be compiled is up to the limit and to its list. -/
theorem compile_eq_ok_iff_of_parse {source text : Text} {limit : Nat} {list : SelectorList}
    {r : Resolver} {options : Options} (h : Selector.parse source limit = .ok list) :
    compile source r options = .ok text ↔
      listNesting list ≤ options.limit ∧ Translate.listText r options.scope list = .ok text := by
  simp only [compile, bind_eq_ok_iff, Selector.parse_eq_ok_iff_of_parse h]
  constructor
  · rintro ⟨_, ⟨rfl, hNesting⟩, hText⟩
    exact ⟨hNesting, hText⟩
  · rintro ⟨hNesting, hText⟩
    exact ⟨list, ⟨rfl, hNesting⟩, hText⟩

/-- Two sets of nodes have the elements of the document between them, each element in one only. -/
structure Document.IsSplit (d : Document) (these those : List Node) : Prop where
  mem_or_mem_iff (n : Node) : n ∈ these ∨ n ∈ those ↔ ∃ p, n = .tree p ∧ d.HasElement p
  disjoint (n : Node) : ¬ (n ∈ these ∧ n ∈ those)

namespace Translate

variable {r : Resolver} {list list' : SelectorList} {alternatives : List Expr}

/-- The path to the elements that do not satisfy any of the alternatives. -/
def complementPath (alternatives : List Expr) : LocationPath :=
  .filter (.elements .descendant) (.negation (Expr.anyOf alternatives))

/-- A selector that is nothing but `:not()` has the complement as its only path. -/
theorem listExpr_not {offset : Nat} (h : listConditions r list = .ok alternatives) :
    listExpr r .descendants [.single ⟨offset, [.not list]⟩] =
      .ok (.path (complementPath alternatives)) := by
  have hConditions : compoundConditions r ⟨offset, [.not list]⟩ =
      .ok [[.negation (Expr.anyOf alternatives)]] := by
    rw [compoundConditions]
    exact partsConditions_cons.mpr ⟨_, simpleConditions_not.mpr ⟨_, h, rfl⟩, [], rfl, rfl⟩
  have hPath : complexPath r .descendant (.single ⟨offset, [.not list]⟩) =
      .ok (complementPath alternatives) := complexPath_single.mpr ⟨_, hConditions, rfl⟩
  exact listExpr_eq_ok_iff.mpr ⟨_, listPaths_cons.mpr ⟨_, hPath, [], rfl, rfl⟩, rfl⟩

/-- The complement can be written down and read again. -/
theorem fits_complementPath {level : Nat} (h : (Expr.anyOf alternatives).IsCondition level) :
    (Expr.path (complementPath alternatives)).Fits primaryLevel .nodes := by
  have hNegation : ∀ e ∈ [(Expr.anyOf alternatives).negation], e.IsCondition conditionLevel :=
    List.forall_mem_singleton.mpr (isCondition_negation h)
  have hShaped : ((LocationPath.elements .descendant).restrict
      [(Expr.anyOf alternatives).negation]).isShaped = true := isShaped_restrict rfl rfl hNegation
  exact fits_path hShaped

/-- The complement leads to the elements of the document for which no alternative holds. -/
theorem mem_nodes_complementPath {d : Document} {n : Node} {level : Nat}
    (h : (Expr.anyOf alternatives).IsCondition level) :
    n ∈ (complementPath alternatives).nodes d (.tree []) ↔
      ∃ p, n = .tree p ∧ d.HasElement p ∧ (Expr.anyOf alternatives).holds d n = false := by
  have hElements : n ∈ (LocationPath.elements .descendant).nodes d (.tree []) ↔
      ∃ p, n = .tree p ∧ d.HasElement p ∧ Scope.descendants.Contains (.tree []) p :=
    @mem_nodes_elements d .descendants (.tree []) n
  rw [complementPath, mem_nodes_filter (isCondition_negation h), holds_negation, hElements]
  constructor
  · rintro ⟨⟨p, hTree, hElement, -⟩, hHolds⟩
    exact ⟨p, hTree, hElement, hHolds⟩
  · rintro ⟨p, hTree, hElement, hHolds⟩
    exact ⟨⟨p, hTree, hElement, hElement.isBelow_nil⟩, hHolds⟩

/-- Elements at which the alternatives hold are the ones that the path leaves out. -/
theorem isSplit_complementPath {d : Document} {selected : List Node} {level : Nat}
    (h : (Expr.anyOf alternatives).IsCondition level)
    (hElements : ∀ n ∈ selected, ∃ p, n = .tree p ∧ d.HasElement p)
    (hHolds : ∀ p, d.HasElement p →
      ((Expr.anyOf alternatives).holds d (.tree p) = true ↔ .tree p ∈ selected)) :
    d.IsSplit selected ((complementPath alternatives).nodes d (.tree [])) where
  mem_or_mem_iff n := by
    rw [mem_nodes_complementPath h]
    constructor
    · rintro (hMem | ⟨p, hTree, hElement, -⟩)
      · exact hElements n hMem
      · exact ⟨p, hTree, hElement⟩
    · rintro ⟨p, rfl, hElement⟩
      cases hCase : (Expr.anyOf alternatives).holds d (.tree p) with
      | true => exact .inl ((hHolds p hElement).mp hCase)
      | false => exact .inr ⟨p, rfl, hElement, rfl⟩
  disjoint n := by
    rw [mem_nodes_complementPath h]
    rintro ⟨hMem, p, rfl, hElement, hFalse⟩
    rw [(hHolds p hElement).mpr hMem] at hFalse
    cases hFalse

/-- The alternatives of a list that is well formed are one condition. -/
theorem isCondition_anyOf_listConditions (hWellFormed : listWellFormed list = true)
    (h : listConditions r list = .ok alternatives) :
    (Expr.anyOf alternatives).IsCondition Operator.or.level := by
  rw [listWellFormed, Bool.and_eq_true] at hWellFormed
  exact isCondition_anyOf (listConditions_ne_nil (by simpa using hWellFormed.1) h)
    (isCondition_listConditions r list hWellFormed.2 h)

/-- For every list that is read and can be translated, the condition that it becomes inside of
`:not()` is read as it was meant and holds at the elements that the list selects in the document.
What the source selects there, and what it selects inside of `:not()`, split the elements of every
document. Inside of `:not()` it compiles unless this is too deep. -/
theorem not_splits_elements {source text : Text} {limit : Nat}
    (hParse : Selector.parse source limit = .ok list)
    (hText : listText r .descendants list = .ok text) :
    ∃ (e condition complement : Expr) (alternatives : List Expr),
      (e.IsReadingOf text ∧
        ∀ limit' text', compile source r ⟨.descendants, limit'⟩ = .ok text' ↔
          listNesting list ≤ limit' ∧ text' = text) ∧
      (listConditions r list = .ok alternatives ∧ condition = Expr.anyOf alternatives ∧
        condition.IsReadingOf condition.text ∧
        ∀ d p, Document.HasElement d p →
          (condition.holds d (.tree p) = true ↔ .tree p ∈ e.selected d (.tree []))) ∧
      (complement.IsReadingOf complement.text ∧
        ∀ limit' text',
          compile (":not(".toList ++ source ++ ")".toList) r ⟨.descendants, limit'⟩ = .ok text' ↔
            listNesting list < limit' ∧ text' = complement.text) ∧
      ∀ d, Document.IsSplit d (e.selected d (.tree [])) (complement.selected d (.tree [])) := by
  have hWellFormed := Selector.listWellFormed_of_parse hParse
  obtain ⟨e, hExpr, rfl⟩ := listText_eq_ok_iff.mp hText
  obtain ⟨paths, hPaths, -⟩ := listExpr_eq_ok_iff.mp hExpr
  obtain ⟨alternatives, hAlternatives⟩ := listConditions_of_listPaths list hPaths
  have hCondition := isCondition_anyOf_listConditions hWellFormed hAlternatives
  have ⟨_, _, hFits⟩ := hCondition
  have hHolds (d : Document) (p : Address) (hElement : d.HasElement p) :
      (Expr.anyOf alternatives).holds d (.tree p) = true ↔ .tree p ∈ e.selected d (.tree []) := by
    rw [holds_anyOf_listConditions hWellFormed hAlternatives hElement,
      mem_selected_listExpr hWellFormed hExpr]
    simp
  refine ⟨e, Expr.anyOf alternatives, .path (complementPath alternatives), alternatives,
    ⟨isReadingOf_text (fits_listExpr hWellFormed hExpr), fun limit' text' => ?_⟩,
    ⟨hAlternatives, rfl, isReadingOf_text hFits, hHolds⟩,
    ⟨isReadingOf_text (fits_complementPath hCondition), fun limit' text' => ?_⟩, fun d => ?_⟩
  · rw [compile_eq_ok_iff_of_parse hParse, hText, Except.ok.injEq, eq_comm]
  · obtain ⟨offset, list', hSame, hNegated⟩ := Selector.parse_not hParse
    have hAlternatives' : listConditions r list' = .ok alternatives := by
      rwa [← listConditions_unplaced, hSame, listConditions_unplaced]
    have hNesting : listNesting [.single ⟨offset, [.not list']⟩] = listNesting list + 1 := by
      rw [← listNesting_unplaced list, ← hSame, listNesting_unplaced]
      simp [listNesting, Complex.nesting, Compound.nesting, partsNesting, Simple.nesting]
    rw [compile_eq_ok_iff_of_parse hNegated, hNesting, listText_eq_ok_iff,
      listExpr_not hAlternatives']
    simp only [Except.ok.injEq, exists_eq_left', Nat.succ_le_iff]
  · refine isSplit_complementPath hCondition ?_ (hHolds d)
    intro n hMem
    obtain ⟨p, rfl, _, _, hChain⟩ := (mem_selected_listExpr hWellFormed hExpr).mp hMem
    exact ⟨p, rfl, hChain.hasElement⟩

/-- Two alternatives, one of which asks about elements before and around. -/
theorem not_splits_elements_of_chain :
    ∃ list text, Selector.parse "a > b + c, *:has(d)".toList 1 = .ok list ∧
      listText Registry.empty.toResolver .descendants list = .ok text ∧
      ∃ e complement : Expr, e.IsReadingOf text ∧ complement.IsReadingOf complement.text ∧
        ∀ d, Document.IsSplit d (e.selected d (.tree [])) (complement.selected d (.tree [])) := by
  have hCompiles : ((Selector.parse "a > b + c, *:has(d)".toList 1).bind
      (listText Registry.empty.toResolver .descendants)).isOk = true := by decide +kernel
  obtain ⟨list, text, hParse, hText⟩ := exists_ok_of_isOk_bind hCompiles
  obtain ⟨e, _, complement, _, ⟨hReading, -⟩, -, ⟨hComplement, -⟩, hSplit⟩ :=
    not_splits_elements hParse hText
  exact ⟨list, text, hParse, hText, e, complement, hReading, hComplement, hSplit⟩

end Translate

end SelectorXPath
