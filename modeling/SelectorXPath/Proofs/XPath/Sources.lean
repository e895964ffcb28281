import SelectorXPath.Proofs.XPath.Lexemes
import SelectorXPath.XPath.Vocabulary

/-! Where the lexemes of an expression come from. Apart from its string constants, all that an
expression can spell out are names of attributes and numbers; every other lexeme is a sign or a word
of XPath itself. So it is enough to say which names and which numbers an expression may have. -/

namespace SelectorXPath.XPath

open SelectorXPath.Text

/-- Names and numbers that may be spelled out. -/
structure Sources where
  IsName : Text → Prop
  IsNumber : Nat → Prop

/-- Signs and words that are part of XPath, whatever an expression says. -/
def Lexeme.IsFixed : Lexeme → Prop
  | .literal .. | .name _ | .number _ => False
  | .nodeType word => word = "text".toList
  | .function word => ∃ function : CoreFunction, word = function.spelling
  | .axis word => ∃ axis : Axis, word = axis.name
  | .operator sign => sign = ['/'] ∨ ∃ operator : Operator, sign = operator.sign
  | _ => True

/-- Lexemes that are drawn from the sources: beside what is fixed and string constants, a name
behind an at sign and the digits of a number. -/
inductive Drawn (S : Sources) : List Lexeme → Prop where
  | nil : Drawn S []
  | fixed {x : Lexeme} {xs : List Lexeme} (h : x.IsFixed) (rest : Drawn S xs) : Drawn S (x :: xs)
  | literal {mark : QuoteMark} {content : Text} {xs : List Lexeme} (rest : Drawn S xs) :
      Drawn S (.literal mark content :: xs)
  | attribute {name : Text} {xs : List Lexeme} (h : S.IsName name) (rest : Drawn S xs) :
      Drawn S (.atSign :: .name name :: xs)
  | number {n : Nat} {xs : List Lexeme} (h : S.IsNumber n) (rest : Drawn S xs) :
      Drawn S (.number (Nat.toDigits 10 n) :: xs)

/-- Lexemes side by side are drawn from the same sources. -/
theorem Drawn.append {S : Sources} {xs ys : List Lexeme} (h : Drawn S xs) (h' : Drawn S ys) :
    Drawn S (xs ++ ys) := by
  induction h with
  | nil => exact h'
  | fixed hFixed _ ih => exact .fixed hFixed ih
  | literal _ ih => exact .literal ih
  | «attribute» hName _ ih => exact .attribute hName ih
  | number hNumber _ ih => exact .number hNumber ih

/-- A name that a step spells out is one of an attribute. -/
def NodeTest.Draws (S : Sources) (axis : Axis) : NodeTest → Prop
  | .named name => axis = .attribute ∧ S.IsName name
  | _ => True

mutual

def LocationPath.Draws (S : Sources) : LocationPath → Prop
  | .here => True
  | .step axis test => test.Draws S axis
  | .next path axis test => path.Draws S ∧ test.Draws S axis
  | .filter path predicate => path.Draws S ∧ predicate.Draws S

/-- The names and the numbers of an expression are from the sources. -/
def Expr.Draws (S : Sources) : Expr → Prop
  | .path path => path.Draws S
  | .literal _ _ => True
  | .number n => S.IsNumber n
  | .call _ arguments => argumentsDraw S arguments
  | .binary _ left right => left.Draws S ∧ right.Draws S
  | .group inner => inner.Draws S
  | .nothing => True

def argumentsDraw (S : Sources) : List Expr → Prop
  | [] => True
  | argument :: more => argument.Draws S ∧ argumentsDraw S more

end

section

variable {S : Sources}

/-- The name of an axis is fixed. -/
theorem drawn_axis {axis : Axis} {xs : List Lexeme} (h : Drawn S xs) :
    Drawn S (axis.lexemes ++ xs) := by
  cases axis with
  | child => exact h
  | «attribute» => exact .fixed trivial h
  | descendant => exact .fixed ⟨.descendant, rfl⟩ (.fixed trivial h)
  | descendantOrSelf => exact .fixed ⟨.descendantOrSelf, rfl⟩ (.fixed trivial h)
  | parent => exact .fixed ⟨.parent, rfl⟩ (.fixed trivial h)
  | ancestor => exact .fixed ⟨.ancestor, rfl⟩ (.fixed trivial h)
  | followingSibling => exact .fixed ⟨.followingSibling, rfl⟩ (.fixed trivial h)
  | precedingSibling => exact .fixed ⟨.precedingSibling, rfl⟩ (.fixed trivial h)

/-- Of a step only the name behind an at sign has a source. -/
theorem drawn_step {axis : Axis} {test : NodeTest} (h : test.Draws S axis) :
    Drawn S (axis.lexemes ++ test.lexemes) := by
  cases test with
  | any => exact drawn_axis (.fixed trivial .nil)
  | named name =>
      obtain ⟨rfl, hName⟩ := h
      exact .attribute hName .nil
  | text => exact drawn_axis (.fixed rfl (.fixed trivial (.fixed trivial .nil)))

mutual

/-- The lexemes of a path are drawn from what the path spells out. -/
theorem LocationPath.drawn_lexemes : ∀ path : LocationPath, path.Draws S → Drawn S path.lexemes
  | .here, _ => .fixed trivial .nil
  | .step axis test, h => drawn_step h
  | .next path axis test, h => by
      rw [LocationPath.Draws] at h
      exact (path.drawn_lexemes h.1).append (.fixed (Or.inl rfl) (drawn_step h.2))
  | .filter path predicate, h => by
      rw [LocationPath.Draws] at h
      have hClose : Drawn S [.rightBracket] := .fixed trivial .nil
      have hPredicate := (predicate.drawn_lexemes h.2).append hClose
      exact (path.drawn_lexemes h.1).append (.fixed trivial hPredicate)

/-- The lexemes of an expression are drawn from where its names and numbers are from. -/
theorem Expr.drawn_lexemes : ∀ e : Expr, e.Draws S → Drawn S e.lexemes
  | .path path, h => path.drawn_lexemes h
  | .literal mark content, _ => .literal .nil
  | .number n, h => .number h .nil
  | .call function arguments, h => by
      have hClose : Drawn S [.rightParenthesis] := .fixed trivial .nil
      have hArguments := (drawn_argumentLexemes arguments h).append hClose
      exact .fixed ⟨function, rfl⟩ (.fixed trivial hArguments)
  | .binary operator left right, h => by
      rw [Expr.Draws] at h
      have hRight := right.drawn_lexemes h.2
      exact (left.drawn_lexemes h.1).append (.fixed (Or.inr ⟨operator, rfl⟩) hRight)
  | .group inner, h => by
      have hClose : Drawn S [.rightParenthesis] := .fixed trivial .nil
      exact .fixed trivial ((inner.drawn_lexemes h).append hClose)
  | .nothing, _ => .nil

theorem drawn_argumentLexemes : ∀ arguments : List Expr, argumentsDraw S arguments →
    Drawn S (argumentLexemes arguments)
  | [], _ => .nil
  | argument :: more, h => by
      rw [argumentsDraw] at h
      exact (argument.drawn_lexemes h.1).append (drawn_moreLexemes more h.2)

theorem drawn_moreLexemes : ∀ arguments : List Expr, argumentsDraw S arguments →
    Drawn S (moreLexemes arguments)
  | [], _ => .nil
  | argument :: more, h => by
      rw [argumentsDraw] at h
      have hMore := (argument.drawn_lexemes h.1).append (drawn_moreLexemes more h.2)
      exact .fixed trivial hMore

end

/-! The phrases of the vocabulary spell out no name and no number of their own. -/

/-- All arguments of a call draw from the sources if each of them does. -/
theorem argumentsDraw_iff {arguments : List Expr} :
    argumentsDraw S arguments ↔ ∀ e ∈ arguments, e.Draws S := by
  induction arguments with
  | nil => simp [argumentsDraw]
  | cons argument more ih => simp [argumentsDraw, ih]

/-- A quoted text spells nothing out. -/
theorem draws_quote (t : Text) : (quote t).Draws S := by
  rw [quote]
  split
  · trivial
  · split
    · trivial
    · rw [Expr.Draws, argumentsDraw_iff, List.forall_mem_map]
      exact fun _ _ => trivial

variable {e : Expr} {path : LocationPath} {t : Text}

theorem draws_nullary (function : CoreFunction) : (Expr.call function []).Draws S := by
  rw [Expr.Draws, argumentsDraw]
  trivial

theorem draws_unary {function : CoreFunction} (h : e.Draws S) :
    (Expr.call function [e]).Draws S := by
  rw [Expr.Draws, argumentsDraw_iff, List.forall_mem_singleton]
  exact h

theorem draws_search {function : CoreFunction} (h : e.Draws S) :
    (Expr.call function [e, quote t]).Draws S := by
  rw [Expr.Draws, argumentsDraw_iff, List.forall_mem_cons, List.forall_mem_singleton]
  exact ⟨h, draws_quote t⟩

theorem draws_binary {operator : Operator} {left right : Expr} (hLeft : left.Draws S)
    (hRight : right.Draws S) : (Expr.binary operator left right).Draws S := by
  rw [Expr.Draws]
  exact ⟨hLeft, hRight⟩

theorem draws_group (h : e.Draws S) : (Expr.group e).Draws S := by
  rw [Expr.Draws]
  exact h

theorem draws_equals (h : e.Draws S) : (Expr.equals e (quote t)).Draws S :=
  draws_binary h (draws_quote t)

theorem draws_nameIs : (Expr.nameIs t).Draws S :=
  draws_equals (draws_nullary .name)

theorem draws_localNameIs : (Expr.localNameIs t).Draws S :=
  draws_equals (draws_nullary .localName)

theorem draws_namespaceIs : (Expr.namespaceIs t).Draws S :=
  draws_equals (draws_nullary .namespaceUri)

theorem draws_hasWord (h : e.Draws S) : (Expr.hasWord e t).Draws S := by
  apply draws_search
  rw [Expr.paddedWords, Expr.Draws, argumentsDraw_iff, List.forall_mem_cons, List.forall_mem_cons,
    List.forall_mem_singleton]
  exact ⟨draws_quote _, draws_unary h, draws_quote _⟩

theorem draws_filter (hPath : path.Draws S) (h : e.Draws S) : (path.filter e).Draws S := by
  rw [LocationPath.Draws]
  exact ⟨hPath, h⟩

/-- A bare attribute spells out its name. -/
theorem draws_attributeNamed (h : S.IsName t) : (LocationPath.attributeNamed t).Draws S :=
  ⟨rfl, h⟩

theorem draws_attributesWith (h : e.Draws S) : (LocationPath.attributesWith e).Draws S :=
  draws_filter trivial h

theorem draws_joined {operator : Operator} {empty : Expr} {list : List Expr}
    (hEmpty : empty.Draws S) (h : ∀ e ∈ list, e.Draws S) :
    (Expr.joined operator empty list).Draws S := by
  have hFrom (more : List Expr) (hMore : ∀ e ∈ more, e.Draws S) :
      ∀ first : Expr, first.Draws S → (more.foldl (Expr.binary operator) first).Draws S := by
    induction more with
    | nil => exact fun _ hFirst => hFirst
    | cons e more ih =>
        rw [List.forall_mem_cons] at hMore
        exact fun first hFirst => ih hMore.2 _ (draws_binary hFirst hMore.1)
  cases list with
  | nil => exact hEmpty
  | cons first more =>
      rw [List.forall_mem_cons] at h
      exact hFrom more h.2 first h.1

theorem draws_allOf {conditions : List Expr} (h : ∀ e ∈ conditions, e.Draws S) :
    (Expr.allOf conditions).Draws S :=
  draws_joined (draws_nullary .true) h

theorem draws_restrict {conditions : List Expr} (hPath : path.Draws S)
    (h : ∀ e ∈ conditions, e.Draws S) : (path.restrict conditions).Draws S := by
  rw [LocationPath.restrict]
  split
  · exact hPath
  · exact draws_filter hPath (draws_allOf h)

theorem draws_unionOf {paths : List LocationPath} (h : ∀ path ∈ paths, path.Draws S) :
    (Expr.unionOf (paths.map .path)).Draws S := by
  have hNothing : Expr.nothing.Draws S := trivial
  apply draws_joined hNothing
  rw [List.forall_mem_map]
  exact h

end

end SelectorXPath.XPath
