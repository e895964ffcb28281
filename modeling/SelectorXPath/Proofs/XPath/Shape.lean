import SelectorXPath.Proofs.XPath.Value
import SelectorXPath.XPath.Vocabulary

/-! The shape of an expression: how tightly it holds together when it is written without
parentheses around it, and of which type its values are. Only expressions have a shape that can be
written down and read again: operands hold together at least as tightly as their operator asks,
constants lack the mark they stand between, names are bare, and functions are given what they
take. -/

namespace SelectorXPath.XPath

open SelectorXPath.Text

inductive ValueType where
  | nodes
  | text
  | number
  | truth
  deriving DecidableEq, Repr

def Value.type : Value → ValueType
  | .nodes _ => .nodes
  | .text _ => .text
  | .number _ => .number
  | .truth _ => .truth

/-- How tightly an operator holds its operands together. -/
def Operator.level : Operator → Nat
  | .or => 0
  | .and => 1
  | .equal => 2
  | .atMost => 3
  | .atLeast => 3
  | .plus => 4
  | .minus => 4
  | .modulo => 5
  | .union => 6

/-- How tightly an expression holds together that is no operator's. -/
def primaryLevel : Nat := 7

/-- No operator holds together as tightly as an expression without one. -/
theorem Operator.level_lt (operator : Operator) : operator.level < primaryLevel := by
  cases operator <;> decide

/-- Types that are taken as a text: texts, and nodes, which stand for the text of the first. -/
def ValueType.isTextual : ValueType → Bool
  | .nodes | .text => true
  | _ => false

def Operator.type? : Operator → ValueType → ValueType → Option ValueType
  | .or, _, _ => some .truth
  | .and, _, _ => some .truth
  | .equal, .number, .number => some .truth
  | .equal, type, .text => if type.isTextual then some .truth else none
  | .atMost, .number, .number => some .truth
  | .atLeast, .number, .number => some .truth
  | .plus, .number, .number => some .number
  | .minus, .number, .number => some .number
  | .modulo, .number, .number => some .number
  | .union, .nodes, .nodes => some .nodes
  | _, _, _ => none

def CoreFunction.type? : CoreFunction → List ValueType → Option ValueType
  | .concat, types =>
      if 2 ≤ types.length ∧ types.all ValueType.isTextual then some .text else none
  | .contains, [type, type'] =>
      if type.isTextual && type'.isTextual then some .truth else none
  | .count, [.nodes] => some .number
  | .false, [] => some .truth
  | .localName, [] => some .text
  | .name, [] => some .text
  | .namespaceUri, [] => some .text
  | .normalizeSpace, [type] => if type.isTextual then some .text else none
  | .not, [_] => some .truth
  | .startsWith, [type, type'] =>
      if type.isTextual && type'.isTextual then some .truth else none
  | .stringLength, [type] => if type.isTextual then some .number else none
  | .substring, [type, .number] => if type.isTextual then some .text else none
  | .true, [] => some .truth
  | _, _ => none

/-- A test is written with a bare name, if with any. -/
def NodeTest.isBare : NodeTest → Bool
  | .named name => isBareName name
  | _ => true

/-- Whether a path is a step, to which a predicate may be added. -/
def LocationPath.isStep : LocationPath → Bool
  | .here => false
  | _ => true

mutual

def LocationPath.isShaped : LocationPath → Bool
  | .here => true
  | .step _ test => test.isBare
  | .next path _ test => path.isShaped && test.isBare
  | .filter path predicate => path.isStep && path.isShaped && predicate.shape?.isSome

/-- The level and the type of an expression, if it can be written down and read again. -/
def Expr.shape? : Expr → Option (Nat × ValueType)
  | .path path => if path.isShaped then some (primaryLevel, .nodes) else none
  | .literal mark content => if mark.char ∉ content then some (primaryLevel, .text) else none
  | .number _ => some (primaryLevel, .number)
  | .call function arguments =>
      (typesOf? arguments).bind fun types => (function.type? types).map (primaryLevel, ·)
  | .binary operator left right =>
      left.shape?.bind fun l => right.shape?.bind fun r =>
        if operator.level ≤ l.1 ∧ operator.level < r.1 then
          (operator.type? l.2 r.2).map (operator.level, ·)
        else none
  | .group inner => inner.shape?.map fun shape => (primaryLevel, shape.2)
  | .nothing => none

def typesOf? : List Expr → Option (List ValueType)
  | [] => some []
  | argument :: arguments =>
      argument.shape?.bind fun shape => (typesOf? arguments).map (shape.2 :: ·)

end

/-- An expression of a type that holds together tightly enough for an operand of the level. -/
def Expr.Fits (e : Expr) (level : Nat) (type : ValueType) : Prop :=
  ∃ k, e.shape? = some (k, type) ∧ level ≤ k

variable {level level' : Nat} {type type' : ValueType} {e left right : Expr}

/-- An expression fits wherever a looser one would. -/
theorem Expr.Fits.mono (h : e.Fits level type) (hLevel : level' ≤ level) :
    e.Fits level' type := by
  obtain ⟨k, hShape, hBound⟩ := h
  exact ⟨k, hShape, Nat.le_trans hLevel hBound⟩

/-- A path with a shape is an operand of any operator. -/
theorem fits_path {path : LocationPath} (h : path.isShaped = true) :
    (Expr.path path).Fits primaryLevel .nodes :=
  ⟨primaryLevel, by rw [Expr.shape?, if_pos h], Nat.le_refl _⟩

theorem fits_number (n : Nat) : (Expr.number n).Fits primaryLevel .number :=
  ⟨primaryLevel, rfl, Nat.le_refl _⟩

/-- A constant must not hold the mark that it stands between. -/
theorem fits_literal {mark : QuoteMark} {t : Text} (h : mark.char ∉ t) :
    (Expr.literal mark t).Fits primaryLevel .text :=
  ⟨primaryLevel, by rw [Expr.shape?, if_pos h], Nat.le_refl _⟩

theorem fits_group (h : e.Fits level type) : (Expr.group e).Fits primaryLevel type := by
  obtain ⟨k, hShape, -⟩ := h
  exact ⟨primaryLevel, by rw [Expr.shape?, hShape]; rfl, Nat.le_refl _⟩

theorem fits_call {function : CoreFunction} {arguments : List Expr} {types : List ValueType}
    (hArguments : typesOf? arguments = some types) (hType : function.type? types = some type) :
    (Expr.call function arguments).Fits primaryLevel type :=
  ⟨primaryLevel, by rw [Expr.shape?, hArguments]; simp [hType], Nat.le_refl _⟩

/-- An operator takes an operand of its own level on the left, and a tighter one on the right. -/
theorem fits_binary {operator : Operator} {leftType rightType : ValueType}
    (hLeft : left.Fits operator.level leftType) (hRight : right.Fits (operator.level + 1) rightType)
    (hType : operator.type? leftType rightType = some type) :
    (Expr.binary operator left right).Fits operator.level type := by
  obtain ⟨k, hShape, hLevel⟩ := hLeft
  obtain ⟨k', hShape', hLevel'⟩ := hRight
  refine ⟨operator.level, ?_, Nat.le_refl _⟩
  rw [Expr.shape?, hShape, hShape']
  simp only [Option.bind_some]
  rw [if_pos ⟨hLevel, hLevel'⟩, hType]
  rfl

/-- Arguments are typed one by one. -/
theorem typesOf?_cons {argument : Expr} {arguments : List Expr} {types : List ValueType}
    (hFirst : argument.Fits level type) (hMore : typesOf? arguments = some types) :
    typesOf? (argument :: arguments) = some (type :: types) := by
  obtain ⟨k, hShape, -⟩ := hFirst
  rw [typesOf?, hShape, hMore]
  rfl

section

variable (d : Document) (n : Node)

/-- The value of an operator has the type that the types of its operands promise. -/
theorem Operator.type_apply {operator : Operator} {v v' : Value}
    (h : operator.type? v.type v'.type = some type) : (operator.apply d v v').type = type := by
  cases operator <;> cases v <;> cases v' <;>
    simp_all [Operator.type?, Operator.apply, Value.type, ValueType.isTextual]

/-- The value of a function has the type that the types of its arguments promise. -/
theorem CoreFunction.type_apply {function : CoreFunction} {values : List Value}
    (h : function.type? (values.map Value.type) = some type) :
    (function.apply d n values).type = type := by
  cases function with
  | concat =>
      rw [CoreFunction.type?] at h
      split at h <;> cases h
      rfl
  | count =>
      rcases values with _ | ⟨⟨⟩, _ | _⟩ <;> cases h
      rfl
  | substring =>
      rcases values with _ | ⟨v, _ | ⟨_ | _ | number | _, _ | _⟩⟩ <;>
        simp [CoreFunction.type?, Value.type] at h
      rw [← h.2]
      cases number <;> rfl
  | false | «true» | localName | name | namespaceUri =>
      rcases values with _ | _ <;> cases h
      rfl
  | normalizeSpace | stringLength =>
      rcases values with _ | ⟨v, _ | _⟩ <;> simp [CoreFunction.type?] at h
      rw [← h.2]
      rfl
  | not =>
      rcases values with _ | ⟨v, _ | _⟩ <;> cases h
      rfl
  | contains | startsWith =>
      rcases values with _ | ⟨v, _ | ⟨v', _ | _⟩⟩ <;> simp [CoreFunction.type?] at h
      rw [← h.2]
      rfl

mutual

/-- The value of an expression has the type of the expression. -/
theorem Expr.type_value : ∀ (e : Expr) {k : Nat} {type : ValueType},
    e.shape? = some (k, type) → (e.value d n).type = type
  | .path path, k, type, h => by
      rw [Expr.shape?] at h
      split at h <;> cases h
      rfl
  | .literal mark content, k, type, h => by
      rw [Expr.shape?] at h
      split at h <;> cases h
      rfl
  | .number m, k, type, h => by
      cases h
      rfl
  | .call function arguments, k, type, h => by
      rw [Expr.shape?] at h
      obtain ⟨types, hTypes, h⟩ := Option.bind_eq_some_iff.mp h
      obtain ⟨type', hType, hPair⟩ := Option.map_eq_some_iff.mp h
      cases hPair
      rw [Expr.value]
      exact CoreFunction.type_apply d n (by rw [types_valuesOf arguments hTypes, hType])
  | .binary operator left right, k, type, h => by
      rw [Expr.shape?] at h
      obtain ⟨l, hLeft, h⟩ := Option.bind_eq_some_iff.mp h
      obtain ⟨r, hRight, h⟩ := Option.bind_eq_some_iff.mp h
      split at h
      · obtain ⟨type', hType, hPair⟩ := Option.map_eq_some_iff.mp h
        cases hPair
        rw [Expr.value]
        exact Operator.type_apply d
          (by rw [Expr.type_value left hLeft, Expr.type_value right hRight, hType])
      · cases h
  | .group inner, k, type, h => by
      rw [Expr.shape?] at h
      obtain ⟨shape, hShape, hPair⟩ := Option.map_eq_some_iff.mp h
      cases hPair
      rw [Expr.value]
      exact Expr.type_value inner hShape
  | .nothing, k, type, h => by cases h

/-- The values of arguments have the types of the arguments. -/
theorem types_valuesOf : ∀ (arguments : List Expr) {types : List ValueType},
    typesOf? arguments = some types → (valuesOf d n arguments).map Value.type = types
  | [], types, h => by
      cases h
      rfl
  | argument :: arguments, types, h => by
      rw [typesOf?] at h
      obtain ⟨shape, hShape, h⟩ := Option.bind_eq_some_iff.mp h
      obtain ⟨more, hMore, rfl⟩ := Option.map_eq_some_iff.mp h
      rw [valuesOf, List.map_cons, Expr.type_value argument hShape,
        types_valuesOf arguments hMore]

end

/-- The value of an expression that fits has its type, at every node of every document. -/
theorem Expr.Fits.type_value (h : e.Fits level type) : (e.value d n).type = type := by
  obtain ⟨k, hShape, -⟩ := h
  exact Expr.type_value d n e hShape

end

end SelectorXPath.XPath
