import SelectorXPath.Compile
import SelectorXPath.Proofs.Selector.Separators
import SelectorXPath.Proofs.Selector.WellFormed
import SelectorXPath.Proofs.Translate.Sources
import SelectorXPath.Proofs.XPath.Brackets

/-! The text of a compiled selector. It is one expression of XPath, a union with one path for each
selector, and no name, value or namespace can change that: what a selector says is found in string
constants, apart from bare names of attributes and numbers. -/

namespace SelectorXPath

open SelectorXPath.Text SelectorXPath.XPath

namespace XPath

/-- The operands of a union, with nothing between them but the signs of the union. -/
def Expr.operands : Expr → List Expr
  | .binary .union left right => left.operands ++ [right]
  | e => [e]

/-- A union that is built from the left has its operands in order. -/
theorem operands_foldl_union (more : List Expr) (first : Expr) :
    (more.foldl (Expr.binary .union) first).operands = first.operands ++ more := by
  induction more generalizing first with
  | nil => simp
  | cons e more ih =>
      rw [List.foldl_cons, ih, Expr.operands, List.append_assoc, List.singleton_append]

/-- The operands of a union of paths are these paths. -/
theorem operands_unionOf {paths : List LocationPath} (h : paths ≠ []) :
    (Expr.unionOf (paths.map .path)).operands = paths.map .path := by
  obtain ⟨first, more, rfl⟩ := List.exists_cons_of_ne_nil h
  exact operands_foldl_union (more.map .path) (.path first)

end XPath

namespace Translate

variable {r : Resolver}

/-- A list has one path for each of its selectors. -/
theorem length_of_listPaths {axis : Axis} {list : List Complex} {paths : List LocationPath}
    (h : listPaths r axis list = .ok paths) : paths.length = list.length := by
  induction list generalizing paths with
  | nil =>
      cases h
      rfl
  | cons selector list ih =>
      obtain ⟨_, -, more, hMore, rfl⟩ := listPaths_cons.mp h
      rw [List.length_cons, List.length_cons, ih hMore]

/-- An expression for a list is a union with one path for each selector. -/
theorem operands_listExpr {scope : Scope} {list : SelectorList} {e : Expr} (hNe : list ≠ [])
    (h : listExpr r scope list = .ok e) :
    ∃ paths : List LocationPath, e.operands = paths.map .path ∧ paths.length = list.length := by
  obtain ⟨paths, hPaths, rfl⟩ := listExpr_eq_ok_iff.mp h
  exact ⟨paths, operands_unionOf (listPaths_ne_nil hNe hPaths), length_of_listPaths hPaths⟩

end Translate

open Translate

/-- Whenever a source compiles, its text is read as exactly one expression of XPath. String
constants are closed in it, and brackets and parentheses outside of them are nested. Of the selector
and its namespaces nothing is spelled out but bare names of attributes and numbers. The expression
is a union with one path for each selector, and the source has one comma less outside of
parentheses. -/
theorem compile_output {source text : Text} {r : Resolver} {options : Options}
    (h : compile source r options = .ok text) :
    ∃ tokens list e lexemes,
      (tokenize source = .ok tokens ∧ Selector.parse source options.limit = .ok list) ∧
      (e.IsReadingOf text ∧
        lex .bare Bool.false text = some lexemes ∧ Written (.operand 0 e) lexemes) ∧
      (Spells lexemes text ∧ Lexeme.marks.Nested none lexemes ∧
        Drawn (sources (listOccurrences list)) lexemes) ∧
      (∃ paths : List LocationPath, e.operands = paths.map .path ∧ paths.length = list.length) ∧
      list.length = outerSeparators 0 tokens + 1 := by
  rw [compile, bind_eq_ok_iff] at h
  obtain ⟨list, hParse, hText⟩ := h
  obtain ⟨e, hExpr, rfl⟩ := listText_eq_ok_iff.mp hText
  obtain ⟨tokens, hTokens, -⟩ := Selector.parse_eq_ok_iff.mp hParse
  have hLength := Selector.length_of_parse hParse hTokens
  have hNe : list ≠ [] := List.ne_nil_of_length_eq_add_one hLength
  have hFits := fits_listExpr (Selector.listWellFormed_of_parse hParse) hExpr
  have hLex := lex_text hFits
  have hWritten := written_lexemes hFits
  have hDrawn := e.drawn_lexemes (draws_listExpr hExpr)
  exact ⟨tokens, list, e, e.lexemes, ⟨hTokens, hParse⟩,
    ⟨isReadingOf_text hFits, hLex, hWritten⟩,
    ⟨spells_of_lex hLex, nested_of_written hWritten, hDrawn⟩,
    operands_listExpr hNe hExpr, hLength⟩

/-- Quotes, a bracket and the sign of a union in a value, positions, and a comma inside of
`:has()`. -/
theorem compile_output_of_signs :
    ∃ (text : Text) (list : SelectorList) (e : Expr) (lexemes : List Lexeme),
      compile "a[b=\"']|\"]:nth-child(2n+3), :has(c, d)".toList Registry.empty.toResolver {} =
        .ok text ∧
      e.IsReadingOf text ∧ Spells lexemes text ∧ Lexeme.marks.Nested none lexemes ∧
      Drawn (sources (listOccurrences list)) lexemes ∧ e.operands.length = 2 := by
  have hCompiles : (compile "a[b=\"']|\"]:nth-child(2n+3), :has(c, d)".toList
      Registry.empty.toResolver {}).isOk = true := by decide +kernel
  have hCommas : (tokenize "a[b=\"']|\"]:nth-child(2n+3), :has(c, d)".toList).toOption.map
      (outerSeparators 0) = some 1 := by decide +kernel
  obtain ⟨list, text, hParse, hList⟩ := exists_ok_of_isOk_bind hCompiles
  have hText := bind_eq_ok_iff.mpr ⟨list, hParse, hList⟩
  obtain ⟨tokens, list, e, lexemes, ⟨hTokens, -⟩, ⟨hReading, -⟩, ⟨hSpells, hNested, hDrawn⟩,
    ⟨paths, hOperands, hPaths⟩, hLength⟩ := compile_output hText
  rw [hTokens] at hCommas
  refine ⟨text, list, e, lexemes, hText, hReading, hSpells, hNested, hDrawn, ?_⟩
  rw [hOperands, List.length_map, hPaths, hLength, Option.some.inj hCommas]

end SelectorXPath
