import SelectorXPath.Proofs.XPath.Vocabulary
import SelectorXPath.Translate.Selector

/-! Translation only makes expressions that have a shape. This needs that no list of alternatives
inside of a selector is empty. -/

namespace SelectorXPath

/-- Two computations one after the other succeed if both do. All others of the translation are taken
apart by this. -/
theorem bind_eq_ok_iff {ε α β : Type} {e : Except ε α} {f : α → Except ε β} {b : β} :
    (e >>= f) = .ok b ↔ ∃ a, e = .ok a ∧ f a = .ok b := by
  cases e <;> simp [bind, Except.bind]

/-- A success of two steps that has been computed gives both values. -/
theorem exists_ok_of_isOk_bind {ε α β : Type} {e : Except ε α} {f : α → Except ε β}
    (h : (e.bind f).isOk = true) : ∃ a b, e = .ok a ∧ f a = .ok b := by
  cases e with
  | error fault => cases h
  | ok a =>
      cases hResult : f a with
      | error fault =>
          rw [Except.bind, hResult] at h
          cases h
      | ok b => exact ⟨a, b, rfl, hResult⟩

theorem pure_eq_ok_iff {ε α : Type} {a b : α} : (pure a : Except ε α) = .ok b ↔ b = a := by
  simp [pure, Except.pure, eq_comm]

namespace Translate

open SelectorXPath.Text SelectorXPath.XPath

section

variable {path : LocationPath}

theorem isCondition_noneOf (h : path.isShaped = true) :
    (noneOf path).IsCondition conditionLevel :=
  isCondition_negation (isCondition_path h)

/-- A name that cannot be written bare is compared as a string, so every attribute has a path. -/
theorem isShaped_plainAttribute (name : Text) : (plainAttribute name).isShaped = true := by
  rw [plainAttribute]
  split
  · rename_i hBare
    exact hBare
  · exact isShaped_attributesWith isCondition_nameIs

theorem isShaped_attributePath {r : Resolver} {name : Text} {qualifier : Qualifier}
    (h : attributePath r name qualifier = .ok path) : path.isShaped = true := by
  cases qualifier with
  | absent | noNamespace =>
      cases h
      exact isShaped_plainAttribute name
  | any =>
      cases h
      exact isShaped_attributesWith isCondition_localNameIs
  | named key =>
      rw [attributePath] at h
      split at h <;> cases h
      refine isShaped_attributesWith (isCondition_allOf ?_)
      simp [isCondition_localNameIs, isCondition_namespaceIs]

theorem isCondition_endsWith (value : Text) (h : path.isShaped = true) :
    (endsWith (.path path) value).IsCondition conditionLevel := by
  have hLength : (Expr.call .stringLength [.path path]).Fits primaryLevel .number :=
    fits_call (typesOf?_cons (fits_path h) rfl) rfl
  have hStart : (if value.length - 1 = 0 then Expr.call .stringLength [.path path]
      else .binary .minus (.call .stringLength [.path path]) (.number (value.length - 1))).Fits
        Operator.minus.level .number := by
    split
    · exact hLength.mono (by decide)
    · exact fits_binary (hLength.mono (by decide)) ((fits_number _).mono (by decide)) rfl
  have hEnd : (Expr.call .substring [.path path, _]).Fits primaryLevel .text :=
    fits_call (typesOf?_cons (fits_path h) (typesOf?_cons hStart rfl)) rfl
  exact (fits_equals_quote rfl (hEnd.mono (by decide))).isCondition (by decide)

/-- A comparison is a condition, whatever its operator and its value are. -/
theorem isCondition_comparisonCondition (comparison : Comparison) (h : path.isShaped = true) :
    (comparisonCondition (.path path) comparison).IsCondition conditionLevel := by
  obtain ⟨operator, value⟩ := comparison
  cases operator with
  | equals => exact (fits_path_equals h).isCondition (by decide)
  | includes =>
      rw [comparisonCondition]
      split
      · exact isCondition_never
      · exact isCondition_hasWord h
  | dashMatch =>
      have hEquals := (fits_path_equals (t := value) h).isCondition (by decide)
      have hStarts : (Expr.call .startsWith [.path path, quote (value ++ ['-'])]).IsCondition
          conditionLevel := isCondition_search rfl (fits_path h)
      have hBoth : ∀ e ∈ [Expr.equals (.path path) (quote value),
          .call .startsWith [.path path, quote (value ++ ['-'])]],
          e.IsCondition Operator.and.level := by
        rw [List.forall_mem_cons, List.forall_mem_singleton]
        exact ⟨hEquals.mono (by decide), hStarts.mono (by decide)⟩
      exact (isCondition_anyOf (by simp) hBoth).group.mono (by decide)
  | beginning | inside =>
      rw [comparisonCondition]
      split
      · exact isCondition_never
      · exact isCondition_search rfl (fits_path h)
  | ending =>
      rw [comparisonCondition]
      split
      · exact isCondition_never
      · exact isCondition_endsWith value h

theorem isCondition_attributeCondition {r : Resolver} {test : AttributeTest} {condition : Expr}
    (h : attributeCondition r test = .ok condition) : condition.IsCondition conditionLevel := by
  rw [attributeCondition] at h
  split at h
  · cases h
  · rename_i path hPath
    have hShaped := isShaped_attributePath hPath
    split at h <;> cases h
    · exact isCondition_path hShaped
    · exact isCondition_comparisonCondition _ hShaped

theorem fits_count (h : path.isShaped = true) :
    (Expr.call .count [.path path]).Fits primaryLevel .number :=
  fits_call (typesOf?_cons (fits_path h) rfl) rfl

/-- A count less a number stands in parentheses where it has to. -/
theorem fits_countLess (k : Int) (h : path.isShaped = true) :
    (countLess path k).Fits primaryLevel .number := by
  have hCount := fits_count h
  rw [countLess]
  split
  · exact hCount
  · split
    all_goals
      exact fits_group
        (fits_binary (hCount.mono (by decide)) ((fits_number _).mono (by decide)) rfl)

theorem isCondition_isMultiple {e : Expr} (divisor : Nat) (h : e.Fits primaryLevel .number) :
    (isMultiple e divisor).IsCondition conditionLevel := by
  have hModulo : (Expr.binary .modulo e (.number divisor)).Fits Operator.modulo.level .number :=
    fits_binary (h.mono (by decide)) ((fits_number divisor).mono (by decide)) rfl
  have hEqual : (isMultiple e divisor).Fits Operator.equal.level .truth :=
    fits_binary (hModulo.mono (by decide)) ((fits_number 0).mono (by decide)) rfl
  exact hEqual.isCondition (by decide)

/-- Comparisons of the count with a number. -/
theorem isCondition_countCompared {operator : Operator} (k : Nat)
    (hLevel : conditionLevel ≤ operator.level)
    (hType : operator.type? .number .number = some .truth) (h : path.isShaped = true) :
    (Expr.binary operator (.call .count [.path path]) (.number k)).IsCondition conditionLevel := by
  have hCompared : (Expr.binary operator (.call .count [.path path]) (.number k)).Fits
      operator.level .truth :=
    fits_binary ((fits_count h).mono (Nat.le_of_lt operator.level_lt))
      ((fits_number k).mono operator.level_lt) hType
  exact (hCompared.mono hLevel).isCondition (by decide)

/-- Positions become comparisons, and never a number alone. -/
theorem isCondition_positionConditions (positions : AnPlusB) (h : path.isShaped = true) :
    ∀ e ∈ positionConditions path positions, e.IsCondition conditionLevel := by
  have hDifference (k : Nat) :
      (Expr.group (.binary .minus (.number k) (.call .count [.path path]))).Fits primaryLevel
        .number :=
    fits_group (fits_binary ((fits_number k).mono (by decide)) ((fits_count h).mono (by decide))
      rfl)
  rw [positionConditions]
  split
  · split
    · exact List.forall_mem_singleton.mpr isCondition_never
    · exact List.forall_mem_singleton.mpr (isCondition_countCompared _ (by decide) rfl h)
  · split
    · rw [List.forall_mem_append]
      constructor
      · split
        · exact List.forall_mem_singleton.mpr (isCondition_countCompared _ (by decide) rfl h)
        · simp
      · split
        · simp
        · exact List.forall_mem_singleton.mpr (isCondition_isMultiple _ (fits_countLess _ h))
    · split
      · exact List.forall_mem_singleton.mpr isCondition_never
      · rw [List.forall_mem_cons]
        refine ⟨isCondition_countCompared _ (by decide) rfl h, ?_⟩
        split
        · simp
        · exact List.forall_mem_singleton.mpr (isCondition_isMultiple _ (hDifference _))

end

section

variable {r : Resolver} {around : Surroundings} {conditions : List Expr}

/-- A type test is made of comparisons of names. -/
theorem isCondition_typeConditions {name : Text} {qualifier : Qualifier}
    (h : typeConditions r name qualifier = .ok conditions) :
    ∀ e ∈ conditions, e.IsCondition conditionLevel := by
  cases qualifier with
  | absent =>
      rw [typeConditions] at h
      split at h
      · split at h <;> cases h <;>
          simp [isCondition_nameIs, isCondition_localNameIs, isCondition_namespaceIs]
      · cases h
        simp [isCondition_nameIs]
  | any | noNamespace =>
      cases h
      simp [isCondition_localNameIs, isCondition_namespaceIs]
  | named key =>
      rw [typeConditions] at h
      split at h <;> cases h
      simp [isCondition_localNameIs, isCondition_namespaceIs]

theorem isCondition_universalConditions {qualifier : Qualifier}
    (h : universalConditions r qualifier = .ok conditions) :
    ∀ e ∈ conditions, e.IsCondition conditionLevel := by
  cases qualifier with
  | named key =>
      rw [universalConditions] at h
      split at h <;> cases h
      simp [isCondition_namespaceIs]
  | _ =>
      cases h
      simp [isCondition_namespaceIs]

theorem isShaped_siblingsOfType {asking : Text} {axis : Axis} {path : LocationPath}
    (h : siblingsOfType r around asking axis = .ok path) : path.isShaped = true := by
  rw [siblingsOfType, bind_eq_ok_iff] at h
  obtain ⟨conditions, hConditions, h⟩ := h
  obtain rfl := pure_eq_ok_iff.mp h
  refine isShaped_restrict rfl rfl ?_
  rw [siblingConditions] at hConditions
  split at hConditions
  · exact isCondition_typeConditions hConditions
  · cases hConditions

theorem isCondition_noneOfType {asking : Text} {axis : Axis} {path : LocationPath}
    (h : siblingsOfType r around asking axis = .ok path) :
    (noneOf path).IsCondition conditionLevel :=
  isCondition_noneOf (isShaped_siblingsOfType h)

/-- Pseudo-classes become paths that must not lead anywhere, or must. -/
theorem isCondition_pseudoConditions {pseudoClass : PseudoClass}
    (h : pseudoConditions r around pseudoClass = .ok conditions) :
    ∀ e ∈ conditions, e.IsCondition conditionLevel := by
  cases pseudoClass with
  | firstOfType | lastOfType =>
      simp only [pseudoConditions, bind_eq_ok_iff, pure_eq_ok_iff] at h
      obtain ⟨siblings, hSiblings, rfl⟩ := h
      exact List.forall_mem_singleton.mpr (isCondition_noneOfType hSiblings)
  | onlyOfType =>
      simp only [pseudoConditions, bind_eq_ok_iff, pure_eq_ok_iff] at h
      obtain ⟨before, hBefore, after, hAfter, rfl⟩ := h
      rw [List.forall_mem_cons, List.forall_mem_singleton]
      exact ⟨isCondition_noneOfType hBefore, isCondition_noneOfType hAfter⟩
  | onlyChild | empty =>
      cases h
      rw [List.forall_mem_cons, List.forall_mem_singleton]
      exact ⟨isCondition_noneOf rfl, isCondition_noneOf rfl⟩
  | firstChild | lastChild | root =>
      cases h
      exact List.forall_mem_singleton.mpr (isCondition_noneOf rfl)
  | checked | disabled =>
      cases h
      exact List.forall_mem_singleton.mpr (isCondition_path (by decide))
  | enabled =>
      cases h
      exact List.forall_mem_singleton.mpr (isCondition_noneOf (by decide))

/-- The path to the siblings that are counted can be written down and read again. -/
theorem isShaped_countedSiblings {counting : Counting} {path : LocationPath}
    (h : countedSiblings r around counting = .ok path) : path.isShaped = true := by
  cases counting with
  | child | lastChild =>
      cases h
      rfl
  | ofType | lastOfType => exact isShaped_siblingsOfType h

end

end Translate

end SelectorXPath
