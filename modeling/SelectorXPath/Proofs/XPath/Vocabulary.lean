import SelectorXPath.Proofs.XPath.Shape
import SelectorXPath.XPath.Vocabulary

/-! The shape of the phrases that translation uses. A condition is anything but a number, and holds
together at least as tightly as an equation, so that conditions can be joined by `and` without
parentheses around them. -/

namespace SelectorXPath.XPath

open SelectorXPath.Text

/-- Nothing of a text is lost when it is cut into pieces. -/
theorem flatMap_pieces (t : Text) : (pieces t).flatMap Prod.snd = t := by
  induction t with
  | nil => rfl
  | cons c t ih =>
      rw [pieces]
      split
      · rw [List.flatMap_cons, ih]
        rfl
      · split
        · rename_i hPieces
          rw [hPieces] at ih
          simpa using ih
        · rw [List.flatMap_cons, ih]
          rfl

/-- No piece of a text holds its own mark. -/
theorem not_mem_of_mem_pieces {t : Text} : ∀ piece ∈ pieces t, piece.1.char ∉ piece.2 := by
  induction t with
  | nil => simp [pieces]
  | cons c t ih =>
      rw [pieces]
      split
      · rename_i hMark
        rw [List.forall_mem_cons]
        exact ⟨by simp [hMark, QuoteMark.char], ih⟩
      · rename_i hMark
        have hChar : QuoteMark.single.char ≠ c := fun hSame => hMark hSame.symm
        split
        · rename_i run more hPieces
          rw [hPieces, List.forall_mem_cons] at ih
          rw [List.forall_mem_cons]
          exact ⟨by simpa [hChar] using ih.1, ih.2⟩
        · rw [List.forall_mem_cons]
          exact ⟨by simpa using hChar, ih⟩

/-- Each piece is a constant between a mark that it does not hold. -/
theorem typesOf?_pieces : ∀ {list : List (QuoteMark × Text)},
    (∀ piece ∈ list, piece.1.char ∉ piece.2) →
    typesOf? (list.map fun piece => .literal piece.1 piece.2) =
      some (List.replicate list.length .text)
  | [], _ => rfl
  | piece :: list, h => by
      rw [List.forall_mem_cons] at h
      rw [List.map_cons, typesOf?_cons (fits_literal h.1) (typesOf?_pieces h.2)]
      rfl

/-- A text with both marks is cut at least once. -/
theorem two_le_length_pieces {t : Text} (hSingle : '\'' ∈ t) (hDouble : '"' ∈ t) :
    2 ≤ (pieces t).length := by
  have hText := flatMap_pieces t
  have hMarks := not_mem_of_mem_pieces (t := t)
  match hPieces : pieces t with
  | [] =>
      rw [hPieces] at hText
      rw [← hText] at hSingle
      cases hSingle
  | [piece] =>
      rw [hPieces] at hText hMarks
      obtain rfl : piece.2 = t := by simpa using hText
      have hMark := hMarks piece (by simp)
      cases hPiece : piece.1 with
      | single =>
          rw [hPiece] at hMark
          exact absurd hSingle hMark
      | double =>
          rw [hPiece] at hMark
          exact absurd hDouble hMark
  | _ :: _ :: _ => simp

/-- A quoted text is a text, and needs no parentheses. -/
theorem fits_quote (t : Text) : (quote t).Fits primaryLevel .text := by
  rw [quote]
  split
  · rename_i hSingle
    exact fits_literal hSingle
  · split
    · rename_i hDouble
      exact fits_literal hDouble
    · rename_i hSingle hDouble
      refine fits_call (typesOf?_pieces not_mem_of_mem_pieces) ?_
      have hLength := two_le_length_pieces (Decidable.not_not.mp hSingle)
        (Decidable.not_not.mp hDouble)
      simp [CoreFunction.type?, ValueType.isTextual, hLength]

/-- Truth is a matter of the value for every type but numbers, which a predicate would take for
positions. -/
def Expr.IsCondition (e : Expr) (level : Nat) : Prop :=
  ∃ type, type ≠ .number ∧ e.Fits level type

/-- The level of conditions. -/
def conditionLevel : Nat := Operator.equal.level

variable {level level' : Nat} {e : Expr}

/-- Any value but a number can be asked for its truth in a predicate. -/
theorem Expr.Fits.isCondition {type : ValueType} (h : e.Fits level type)
    (hType : type ≠ .number) : e.IsCondition level :=
  ⟨type, hType, h⟩

theorem Expr.IsCondition.mono (h : e.IsCondition level) (hLevel : level' ≤ level) :
    e.IsCondition level' := by
  obtain ⟨type, hType, hFits⟩ := h
  exact ⟨type, hType, hFits.mono hLevel⟩

/-- Parentheses make an operand of a condition. -/
theorem Expr.IsCondition.group (h : e.IsCondition level) :
    (Expr.group e).IsCondition primaryLevel := by
  obtain ⟨type, hType, hFits⟩ := h
  exact ⟨type, hType, fits_group hFits⟩

theorem Expr.IsCondition.isSome (h : e.IsCondition level) : e.shape?.isSome = true := by
  obtain ⟨type, _, k, hShape, -⟩ := h
  simp [hShape]

/-- Operators that join conditions. -/
def Operator.isConnective : Operator → Bool
  | .or | .and => true
  | _ => false

/-- Connectives join conditions from the left. -/
theorem isCondition_foldl {operator : Operator} (hOperator : operator.isConnective = true)
    {more : List Expr} (hMore : ∀ e ∈ more, e.IsCondition (operator.level + 1)) :
    ∀ first : Expr, first.IsCondition operator.level →
      (more.foldl (.binary operator) first).IsCondition operator.level := by
  induction more with
  | nil => exact fun _ hFirst => hFirst
  | cons e more ih =>
      rw [List.forall_mem_cons] at hMore
      intro first hFirst
      obtain ⟨type, -, hLeft⟩ := hFirst
      obtain ⟨type', -, hRight⟩ := hMore.1
      have hType : operator.type? type type' = some .truth := by
        cases operator with
        | or => rfl
        | and => rfl
        | _ => cases hOperator
      exact ih hMore.2 _ ((fits_binary hLeft hRight hType).isCondition (by decide))

/-- All of several conditions are one condition. -/
theorem isCondition_allOf {conditions : List Expr}
    (h : ∀ e ∈ conditions, e.IsCondition conditionLevel) :
    (Expr.allOf conditions).IsCondition Operator.and.level := by
  cases conditions with
  | nil =>
      have hTrue : (Expr.call .true []).Fits primaryLevel .truth := fits_call rfl rfl
      exact (hTrue.isCondition (by decide)).mono (by decide)
  | cons first more =>
      rw [List.forall_mem_cons] at h
      exact isCondition_foldl rfl h.2 first (h.1.mono (by decide))

/-- One of several alternatives is one condition, if there are any. -/
theorem isCondition_anyOf {alternatives : List Expr} (hNe : alternatives ≠ [])
    (h : ∀ e ∈ alternatives, e.IsCondition Operator.and.level) :
    (Expr.anyOf alternatives).IsCondition Operator.or.level := by
  obtain ⟨first, more, rfl⟩ := List.exists_cons_of_ne_nil hNe
  rw [List.forall_mem_cons] at h
  exact isCondition_foldl rfl h.2 first (h.1.mono (by decide))

theorem fits_foldl_union {paths : List LocationPath}
    (h : ∀ path ∈ paths, path.isShaped = true) :
    ∀ first : Expr, first.Fits Operator.union.level .nodes →
      ((paths.map .path).foldl (.binary .union) first).Fits Operator.union.level .nodes := by
  induction paths with
  | nil => exact fun _ hFirst => hFirst
  | cons path paths ih =>
      rw [List.forall_mem_cons] at h
      exact fun first hFirst => ih h.2 _ (fits_binary hFirst (fits_path h.1) rfl)

/-- A union of paths is a set of nodes. -/
theorem fits_unionOf {paths : List LocationPath} (hNe : paths ≠ [])
    (h : ∀ path ∈ paths, path.isShaped = true) :
    (Expr.unionOf (paths.map .path)).Fits Operator.union.level .nodes := by
  obtain ⟨first, more, rfl⟩ := List.exists_cons_of_ne_nil hNe
  rw [List.forall_mem_cons] at h
  exact fits_foldl_union h.2 _ ((fits_path h.1).mono (by decide))

theorem isShaped_attributesWith (h : e.IsCondition level) :
    (LocationPath.attributesWith e).isShaped = true := by
  simp [LocationPath.attributesWith, LocationPath.isShaped, LocationPath.isStep, NodeTest.isBare,
    h.isSome]

/-- Restricting a step by conditions leaves a path with a shape. -/
theorem isShaped_restrict {path : LocationPath} {conditions : List Expr}
    (hStep : path.isStep = true) (hPath : path.isShaped = true)
    (h : ∀ e ∈ conditions, e.IsCondition conditionLevel) :
    (path.restrict conditions).isShaped = true := by
  rw [LocationPath.restrict]
  split
  · exact hPath
  · simp [LocationPath.isShaped, hStep, hPath, (isCondition_allOf h).isSome]

theorem isStep_restrict {path : LocationPath} (conditions : List Expr) (h : path.isStep = true) :
    (path.restrict conditions).isStep = true := by
  rw [LocationPath.restrict]
  split
  · exact h
  · rfl

section

variable {path : LocationPath} {t : Text}

theorem fits_equals_quote {type : ValueType} (hText : type.isTextual = true)
    (h : e.Fits conditionLevel type) : (Expr.equals e (quote t)).Fits conditionLevel .truth :=
  fits_binary h ((fits_quote t).mono (by decide)) (by cases type <;> simp_all [Operator.type?])

theorem fits_nullary {function : CoreFunction} {type : ValueType}
    (h : function.type? [] = some type) : (Expr.call function []).Fits primaryLevel type :=
  fits_call rfl h

theorem isCondition_nameIs : (Expr.nameIs t).IsCondition conditionLevel :=
  (fits_equals_quote rfl ((fits_nullary rfl).mono (by decide))).isCondition (by decide)

theorem isCondition_localNameIs : (Expr.localNameIs t).IsCondition conditionLevel :=
  (fits_equals_quote rfl ((fits_nullary rfl).mono (by decide))).isCondition (by decide)

theorem isCondition_namespaceIs : (Expr.namespaceIs t).IsCondition conditionLevel :=
  (fits_equals_quote rfl ((fits_nullary rfl).mono (by decide))).isCondition (by decide)

theorem isCondition_never : Expr.never.IsCondition conditionLevel := by
  have hFalse : Expr.never.Fits primaryLevel .truth := fits_nullary rfl
  exact (hFalse.mono (by decide)).isCondition (by decide)

/-- The negation of a condition is one. -/
theorem isCondition_negation (h : e.IsCondition level) :
    (Expr.negation e).IsCondition conditionLevel := by
  obtain ⟨type, -, hFits⟩ := h
  have hNot : (Expr.negation e).Fits primaryLevel .truth :=
    fits_call (typesOf?_cons hFits rfl) rfl
  exact (hNot.mono (by decide)).isCondition (by decide)

/-- A path is a condition: it leads somewhere. -/
theorem isCondition_path (h : path.isShaped = true) :
    (Expr.path path).IsCondition conditionLevel :=
  ((fits_path h).mono (by decide)).isCondition (by decide)

theorem fits_path_equals (h : path.isShaped = true) :
    (Expr.equals (.path path) (quote t)).Fits conditionLevel .truth :=
  fits_equals_quote rfl ((fits_path h).mono (by decide))

/-- Functions that look for one text in another. -/
theorem isCondition_search {function : CoreFunction} {type : ValueType}
    (hType : function.type? [type, .text] = some .truth) (h : e.Fits level type) :
    (Expr.call function [e, quote t]).IsCondition conditionLevel := by
  have hSearch : (Expr.call function [e, quote t]).Fits primaryLevel .truth :=
    fits_call (typesOf?_cons h (typesOf?_cons (fits_quote t) rfl)) hType
  exact (hSearch.mono (by decide)).isCondition (by decide)

/-- Looking for a word is a condition. -/
theorem isCondition_hasWord (h : path.isShaped = true) :
    (Expr.hasWord (.path path) t).IsCondition conditionLevel := by
  have hNormal : (Expr.call .normalizeSpace [.path path]).Fits primaryLevel .text :=
    fits_call (typesOf?_cons (fits_path h) rfl) rfl
  have hPadded : (Expr.paddedWords (.path path)).Fits primaryLevel .text :=
    fits_call (typesOf?_cons (fits_quote [' ']) (typesOf?_cons hNormal
      (typesOf?_cons (fits_quote [' ']) rfl))) rfl
  exact isCondition_search rfl hPadded

end

end SelectorXPath.XPath
