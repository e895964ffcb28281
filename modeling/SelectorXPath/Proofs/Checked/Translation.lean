import SelectorXPath.Compile
import SelectorXPath.Proofs.Checked.Parser
import SelectorXPath.Proofs.Selector.WellFormed

/-!
# Translation with bounded numbers, and the whole compiler

The translation computes with numbers in two places. The length of a value is reduced by one, and
the numbers of an `an+b` expression, which have 32 bits, are moved by one and negated in 64 bits.
Here both are operations that can fail, and the whole translation is made of them. It has a value
for every selector that the parser returns: the value is not empty where its length is reduced, and
the numbers are in range.

With it the compiler is put together from operations that can fail. It has a value for every source,
every limit, every scope and every resolver, and it is the result of the compiler whose operations
cannot fail.
-/

namespace SelectorXPath.Checked

open SelectorXPath.Translate SelectorXPath.XPath

/-- A computation that can end with the fault of a selector. -/
abbrev Translation (α : Type) : Type :=
  ExceptT SelectorError Checked α

def endsWith (node : Expr) (value : Text) : Checked Expr := do
  let before ← less? value.length 1
  let length : Expr := .call .stringLength [node]
  let start := if before = 0 then length else .binary .minus length (.number before)
  return .equals (.call .substring [node, start]) (quote value)

def comparisonCondition (node : Expr) (comparison : Comparison) : Checked Expr :=
  if comparison.operator = .ending ∧ comparison.value ≠ [] then endsWith node comparison.value
  else return Translate.comparisonCondition node comparison

def attributeCondition (r : Resolver) (test : AttributeTest) : Translation Expr := do
  let path ← attributePath r test.name test.qualifier
  match test.comparison with
  | none => return .path path
  | some comparison => ExceptT.lift (comparisonCondition (.path path) comparison)

def countLess (siblings : LocationPath) (k : Int) : Checked Expr :=
  if k < 0 then do
    let added ← signed? (-k)
    return .group (.binary .plus (.call .count [.path siblings]) (.number added.toNat))
  else return Translate.countLess siblings k

def positionConditions (siblings : LocationPath) (positions : AnPlusB) : Checked (List Expr) := do
  let count : Expr := .call .count [.path siblings]
  let k ← signed? (positions.b - 1)
  if positions.a = 0 then
    return if k < 0 then [.call .false []] else [.binary .equal count (.number k.toNat)]
  else if 0 < positions.a then
    let bound := if 0 < k then [.binary .atLeast count (.number k.toNat)] else []
    if positions.a = 1 then return bound
    else
      let distance ← countLess siblings k
      return bound ++ [isMultiple distance positions.a.toNat]
  else if k < 0 then return [.call .false []]
  else
    let bound : Expr := .binary .atMost count (.number k.toNat)
    if positions.a = -1 then return [bound]
    else
      let divisor ← signed? (-positions.a)
      return [bound,
        isMultiple (.group (.binary .minus (.number k.toNat) count)) divisor.toNat]

mutual

def simpleConditions (r : Resolver) (around : Surroundings) : Simple → Translation (List Expr)
  | .attribute test => do
    let condition ← attributeCondition r test
    return [condition]
  | .nth counting positions => do
    let siblings ← countedSiblings r around counting
    ExceptT.lift (positionConditions siblings positions)
  | .not list => do
    let alternatives ← listConditions r list
    return [.negation (Expr.anyOf alternatives)]
  | .has list => do
    let paths ← listPaths r .descendant list
    return [leadsSomewhere paths]
  | .type name qualifier => Translate.simpleConditions r around (.type name qualifier)
  | .universal qualifier => Translate.simpleConditions r around (.universal qualifier)
  | .class name => Translate.simpleConditions r around (.class name)
  | .id name => Translate.simpleConditions r around (.id name)
  | .pseudo pseudoClass => Translate.simpleConditions r around (.pseudo pseudoClass)
  | .contains text => Translate.simpleConditions r around (.contains text)

def partsConditions (r : Resolver) (around : Surroundings) :
    List Simple → Translation (List (List Expr))
  | [] => return []
  | part :: parts => do
    let conditions ← simpleConditions r around part
    let more ← partsConditions r around parts
    return conditions :: more

def compoundConditions (r : Resolver) : Compound → Translation (List (List Expr))
  | ⟨offset, parts⟩ => partsConditions r (.of ⟨offset, parts⟩) parts

def complexPath (r : Resolver) (axis : Axis) : Complex → Translation LocationPath
  | .single compound => do
    let conditions ← compoundConditions r compound
    return narrow (.elements axis) conditions
  | .joined left combinator right => do
    let path ← complexPath r axis left
    let conditions ← compoundConditions r right
    return narrow (forward path combinator) conditions

def complexConditions (r : Resolver) : Complex → Translation (List Expr)
  | .single compound => do
    let conditions ← compoundConditions r compound
    return conditions.flatten
  | .joined left combinator right => do
    let before ← complexConditions r left
    let conditions ← compoundConditions r right
    return conditions.flatten ++ [.path ((backward combinator).restrict before)]

def listPaths (r : Resolver) (axis : Axis) : List Complex → Translation (List LocationPath)
  | [] => return []
  | selector :: list => do
    let path ← complexPath r axis selector
    let paths ← listPaths r axis list
    return path :: paths

def listConditions (r : Resolver) : List Complex → Translation (List Expr)
  | [] => return []
  | selector :: list => do
    let conditions ← complexConditions r selector
    let more ← listConditions r list
    return Expr.allOf conditions :: more

end

def listText (r : Resolver) (scope : Scope) (list : SelectorList) : Translation Text := do
  let paths ← listPaths r scope.axis list
  return (Expr.unionOf (paths.map .path)).text

/-- The length of a value that is not empty can be reduced by one. -/
theorem endsWith_eq (node : Expr) {value : Text} (h : value ≠ []) :
    endsWith node value = some (Translate.endsWith node value) := by
  have hLength : 1 ≤ value.length := List.length_pos_iff.mpr h
  simp only [endsWith, less?_of_le hLength, Option.bind_eq_bind, Option.bind_some]
  rfl

/-- An empty value is asked for before its length is reduced. -/
theorem comparisonCondition_eq (node : Expr) (comparison : Comparison) :
    comparisonCondition node comparison = some (Translate.comparisonCondition node comparison) := by
  unfold comparisonCondition
  split
  · rename_i hEnding
    obtain ⟨operator, value⟩ := comparison
    obtain ⟨rfl, hValue⟩ := hEnding
    rw [endsWith_eq node hValue, Translate.comparisonCondition, if_neg hValue]
  · rfl

/-- A number of 33 bits can be negated. -/
theorem countLess_eq (siblings : LocationPath) {k : Int} (h : k.natAbs ≤ 4294967296) :
    countLess siblings k = some (Translate.countLess siblings k) := by
  unfold countLess
  split
  · have hZero : ¬k = 0 := by omega
    have hPos : ¬0 < k := by omega
    rw [signed?_of_abs_le (by omega), Translate.countLess, if_neg hZero, if_neg hPos]
    rfl
  · rfl

/-- Numbers of 32 bits stay in 64 bits when one is taken from them and when they are negated. -/
theorem positionConditions_eq (siblings : LocationPath) {positions : AnPlusB}
    (ha : AnPlusB.inRange positions.a = true) (hb : AnPlusB.inRange positions.b = true) :
    positionConditions siblings positions =
      some (Translate.positionConditions siblings positions) := by
  simp only [AnPlusB.inRange, Bool.and_eq_true, decide_eq_true_eq] at ha hb
  have hLess : signed? (positions.b - 1) = some (positions.b - 1) := signed?_of_abs_le (by omega)
  have hNegated : signed? (-positions.a) = some (-positions.a) := signed?_of_abs_le (by omega)
  have hDistance : countLess siblings (positions.b - 1) = some _ :=
    countLess_eq siblings (by omega)
  simp only [positionConditions, hLess, hNegated, hDistance, Option.bind_eq_bind, Option.bind_some]
  unfold Translate.positionConditions
  dsimp only
  split
  · rfl
  split
  · split <;> simp
  split
  · rfl
  split <;> simp

section

variable {α β : Type} {m : Translation α} {x : Except SelectorError α}

/-- The bind lemma: two steps have a value if the first has one, and the second for what the first
returns. -/
theorem run_bind {f : α → Translation β} {g : α → Except SelectorError β} (h : m.run = some x)
    (hNext : ∀ value, x = .ok value → (f value).run = some (g value)) :
    (m >>= f).run = some (x >>= g) := by
  cases x with
  | error e =>
    show Option.bind m.run _ = _
    rw [h]
    rfl
  | ok value =>
    show Option.bind m.run _ = _
    rw [h]
    exact hNext value rfl

theorem run_lift {value : Checked α} {a : α} (h : value = some a) :
    (ExceptT.lift value : Translation α).run = some (.ok a) := by
  rw [h]
  rfl

end

theorem attributeCondition_eq (r : Resolver) (test : AttributeTest) :
    (attributeCondition r test).run = some (Translate.attributeCondition r test) := by
  unfold attributeCondition Translate.attributeCondition
  cases attributePath r test.name test.qualifier with
  | error e => rfl
  | ok path =>
    cases test.comparison with
    | none => rfl
    | some comparison => exact run_lift (comparisonCondition_eq _ comparison)

mutual

/-- Conditions have a value if the numbers in the selector are in range, by induction over the
tree. -/
theorem simpleConditions_eq (r : Resolver) (around : Surroundings) :
    ∀ simple : Simple, simple.isWellFormed = true →
      (simpleConditions r around simple).run = some (Translate.simpleConditions r around simple)
  | .attribute test, _ => by
    rw [simpleConditions, Translate.simpleConditions]
    exact run_bind (attributeCondition_eq r test) fun _ _ => rfl
  | .nth counting positions, h => by
    rw [Simple.isWellFormed, Bool.and_eq_true] at h
    rw [simpleConditions, Translate.simpleConditions]
    exact run_bind rfl fun siblings _ => run_lift (positionConditions_eq siblings h.1 h.2)
  | .not list, h => by
    rw [Simple.isWellFormed, Bool.and_eq_true] at h
    rw [simpleConditions, Translate.simpleConditions]
    exact run_bind (listConditions_eq r list h.2) fun _ _ => rfl
  | .has list, h => by
    rw [Simple.isWellFormed, Bool.and_eq_true] at h
    rw [simpleConditions, Translate.simpleConditions]
    exact run_bind (listPaths_eq r .descendant list h.2) fun _ _ => rfl
  | .type .., _ | .universal .., _ | .class .., _ | .id .., _ | .pseudo .., _
  | .contains .., _ => by
    rw [simpleConditions]
    rfl

theorem partsConditions_eq (r : Resolver) (around : Surroundings) :
    ∀ parts : List Simple, partsWellFormed parts = true →
      (partsConditions r around parts).run = some (Translate.partsConditions r around parts)
  | [], _ => rfl
  | part :: parts, h => by
    rw [partsWellFormed, Bool.and_eq_true] at h
    rw [partsConditions, Translate.partsConditions]
    refine run_bind (simpleConditions_eq r around part h.1) fun _ _ => ?_
    exact run_bind (partsConditions_eq r around parts h.2) fun _ _ => rfl

theorem compoundConditions_eq (r : Resolver) :
    ∀ compound : Compound, compound.isWellFormed = true →
      (compoundConditions r compound).run = some (Translate.compoundConditions r compound)
  | ⟨offset, parts⟩, h => by
    rw [Compound.isWellFormed, Bool.and_eq_true] at h
    rw [compoundConditions, Translate.compoundConditions]
    exact partsConditions_eq r _ parts h.2

theorem complexPath_eq (r : Resolver) (axis : Axis) :
    ∀ selector : Complex, selector.isWellFormed = true →
      (complexPath r axis selector).run = some (Translate.complexPath r axis selector)
  | .single compound, h => by
    rw [Complex.isWellFormed] at h
    rw [complexPath, Translate.complexPath]
    exact run_bind (compoundConditions_eq r compound h) fun _ _ => rfl
  | .joined left combinator right, h => by
    rw [Complex.isWellFormed, Bool.and_eq_true] at h
    rw [complexPath, Translate.complexPath]
    refine run_bind (complexPath_eq r axis left h.1) fun _ _ => ?_
    exact run_bind (compoundConditions_eq r right h.2) fun _ _ => rfl

theorem complexConditions_eq (r : Resolver) :
    ∀ selector : Complex, selector.isWellFormed = true →
      (complexConditions r selector).run = some (Translate.complexConditions r selector)
  | .single compound, h => by
    rw [Complex.isWellFormed] at h
    rw [complexConditions, Translate.complexConditions]
    exact run_bind (compoundConditions_eq r compound h) fun _ _ => rfl
  | .joined left combinator right, h => by
    rw [Complex.isWellFormed, Bool.and_eq_true] at h
    rw [complexConditions, Translate.complexConditions]
    refine run_bind (complexConditions_eq r left h.1) fun _ _ => ?_
    exact run_bind (compoundConditions_eq r right h.2) fun _ _ => rfl

/-- The paths of a list that is well formed have a value. -/
theorem listPaths_eq (r : Resolver) (axis : Axis) :
    ∀ list : List Complex, allWellFormed list = true →
      (listPaths r axis list).run = some (Translate.listPaths r axis list)
  | [], _ => rfl
  | selector :: list, h => by
    rw [allWellFormed, Bool.and_eq_true] at h
    rw [listPaths, Translate.listPaths]
    refine run_bind (complexPath_eq r axis selector h.1) fun _ _ => ?_
    exact run_bind (listPaths_eq r axis list h.2) fun _ _ => rfl

theorem listConditions_eq (r : Resolver) :
    ∀ list : List Complex, allWellFormed list = true →
      (listConditions r list).run = some (Translate.listConditions r list)
  | [], _ => rfl
  | selector :: list, h => by
    rw [allWellFormed, Bool.and_eq_true] at h
    rw [listConditions, Translate.listConditions]
    refine run_bind (complexConditions_eq r selector h.1) fun _ _ => ?_
    exact run_bind (listConditions_eq r list h.2) fun _ _ => rfl

end

/-- The translation of a selector that is well formed has a value. -/
theorem listText_eq (r : Resolver) (scope : Scope) {list : SelectorList}
    (h : listWellFormed list = true) :
    (listText r scope list).run = some (Translate.listText r scope list) := by
  rw [listWellFormed, Bool.and_eq_true] at h
  refine (run_bind (listPaths_eq r scope.axis list h.2) fun _ _ => rfl).trans (congrArg some ?_)
  rw [Translate.listText, Translate.listExpr]
  cases Translate.listPaths r scope.axis list <;> rfl

/-! ### The whole compiler -/

/-- The XPath text of a selector. -/
def compile (source : Text) (r : Resolver) (scope : Scope) (limit : DepthLimit) :
    Translation Text := do
  let list ← ExceptT.mk (parse source limit)
  listText r scope list

theorem listText_of_parse {source : Text} {limit : Nat} {list : SelectorList}
    (h : Selector.parse source limit = .ok list) (r : Resolver) (scope : Scope) :
    (listText r scope list).run = some (Translate.listText r scope list) :=
  listText_eq r scope (Selector.listWellFormed_of_parse h)

/-- The whole compiler has a value, and it is that of the compiler whose operations cannot fail. -/
theorem compile_eq (source : Text) (r : Resolver) (scope : Scope) (limit : DepthLimit) :
    (compile source r scope limit).run =
      some (SelectorXPath.compile source r ⟨scope, limit.value⟩) :=
  run_bind (parse_eq source limit) fun _ hList => listText_of_parse hList r scope

/-- Every text is cut between two characters of it, every index lies in its list, no number leaves
its range and every loop ends, whatever the source and the limit are: scanning, reading, decoding
names, reading positions and translating what was read all have a value, the one that they are
defined to have. -/
theorem no_operation_fails (source : Text) (limit : DepthLimit) (r : Resolver) (scope : Scope) :
    (compile source r scope limit).run =
        some (SelectorXPath.compile source r ⟨scope, limit.value⟩) ∧
      tokenize source = some (SelectorXPath.tokenize source) ∧
      parse source limit = some (Selector.parse source limit.value) ∧
      (∀ raw, unescape raw = some (Text.unescape raw)) ∧
      (∀ text, positionsOf text = some (AnPlusB.read? text)) ∧
      ∀ list, Selector.parse source limit.value = .ok list →
        (listText r scope list).run = some (Translate.listText r scope list) :=
  ⟨compile_eq source r scope limit, tokenize_eq source, parse_eq source limit, unescape_eq,
    positionsOf_eq, fun _ hList => listText_of_parse hList r scope⟩

/-- Escapes next to characters of several bytes, the smallest number of positions and a value of one
character, on a machine of 32 bits. -/
theorem no_operation_fails_of_escapes :
    ∃ list, Selector.parse ".é\\e9 ü:nth-child(-3n-2147483648)[ä$='ö']".toList 1 = .ok list ∧
      (listText (.ofBindings []) .children list).run =
        some (Translate.listText (.ofBindings []) .children list) := by
  have hRead : (Selector.parse
      ".é\\e9 ü:nth-child(-3n-2147483648)[ä$='ö']".toList 1).toOption.isSome = true := by
    decide +kernel
  have hAll := no_operation_fails ".é\\e9 ü:nth-child(-3n-2147483648)[ä$='ö']".toList
    ⟨1, 4294967295, by decide⟩ (.ofBindings []) .children
  cases hList : Selector.parse ".é\\e9 ü:nth-child(-3n-2147483648)[ä$='ö']".toList 1 with
  | error e =>
    rw [hList] at hRead
    cases hRead
  | ok list => exact ⟨list, rfl, hAll.2.2.2.2.2 list hList⟩

end SelectorXPath.Checked
