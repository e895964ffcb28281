import SelectorXPath.Proofs.XPath.Syntax

/-! The productions are unambiguous. They recurse on the left, so two derivations of the same
lexemes cannot be compared piece by piece. Instead they are turned into runs of a parser that looks
one lexeme ahead: it reads the first operand of a level and then one operator after the other. Every
step of that parser is the only one possible. -/

namespace SelectorXPath.XPath

open SelectorXPath.Text

/-- What the parser is about to read, and what it has read so far of it. -/
inductive Reading where
  | operand (level : Nat)
  | operators (level : Nat) (left : Expr)
  | primary
  | path
  | steps (path : LocationPath)
  | arguments
  | moreArguments

/-- What the parser has read. -/
inductive Parsed where
  | expr (e : Expr)
  | path (path : LocationPath)
  | arguments (arguments : List Expr)

/-- The runs of the parser: what it reads from which lexemes, and what it leaves. -/
inductive Parses : Reading → List Lexeme → Parsed → List Lexeme → Prop where
  | down {level : Nat} {e : Expr} {ts us vs : List Lexeme} {x : Parsed}
      (hLevel : level < primaryLevel) (h : Parses (.operand (level + 1)) ts (.expr e) us)
      (hMore : Parses (.operators level e) us x vs) : Parses (.operand level) ts x vs
  | top {level : Nat} {e : Expr} {ts us vs : List Lexeme} {x : Parsed}
      (hLevel : ¬ level < primaryLevel) (h : Parses .primary ts (.expr e) us)
      (hMore : Parses (.operators level e) us x vs) : Parses (.operand level) ts x vs
  | operator {operator : Operator} {level : Nat} {left right : Expr} {ts us vs ws : List Lexeme}
      {x : Parsed} (hLevel : operator.level = level) (hTokens : ts = .operator operator.sign :: us)
      (h : Parses (.operand (level + 1)) us (.expr right) vs)
      (hMore : Parses (.operators level (.binary operator left right)) vs x ws) :
      Parses (.operators level left) ts x ws
  | noOperator {level : Nat} {left : Expr} {ts : List Lexeme}
      (hNext : ∀ operator : Operator, operator.level = level →
        ts.head? ≠ some (.operator operator.sign)) :
      Parses (.operators level left) ts (.expr left) ts
  | path {path : LocationPath} {ts us : List Lexeme} (h : Parses .path ts (.path path) us) :
      Parses .primary ts (.expr (.path path)) us
  | literal {mark : QuoteMark} {content : Text} {ts : List Lexeme} :
      Parses .primary (.literal mark content :: ts) (.expr (.literal mark content)) ts
  | number {digits : Text} {ts : List Lexeme} :
      Parses .primary (.number digits :: ts) (.expr (.number (Nat.ofDigitChars 10 digits 0))) ts
  | call {name : Text} {function : CoreFunction} {arguments : List Expr} {ts us : List Lexeme}
      (hName : name = function.spelling)
      (h : Parses .arguments ts (.arguments arguments) (.rightParenthesis :: us)) :
      Parses .primary (.function name :: .leftParenthesis :: ts)
        (.expr (.call function arguments)) us
  | group {inner : Expr} {ts us : List Lexeme}
      (h : Parses (.operand 0) ts (.expr inner) (.rightParenthesis :: us)) :
      Parses .primary (.leftParenthesis :: ts) (.expr (.group inner)) us
  | here {ts us : List Lexeme} {x : Parsed} (h : Parses (.steps .here) ts x us) :
      Parses .path (.dot :: ts) x us
  | step {axis : Axis} {test : NodeTest} {xs ys ts us vs : List Lexeme} {x : Parsed}
      (hAxis : WritesAxis axis xs) (hTest : WritesTest test ys) (hTokens : ts = xs ++ (ys ++ us))
      (h : Parses (.steps (.step axis test)) us x vs) : Parses .path ts x vs
  | slash {path : LocationPath} {axis : Axis} {test : NodeTest} {xs ys ts us vs : List Lexeme}
      {x : Parsed} (hAxis : WritesAxis axis xs) (hTest : WritesTest test ys)
      (hTokens : ts = .operator ['/'] :: (xs ++ (ys ++ us)))
      (h : Parses (.steps (.next path axis test)) us x vs) : Parses (.steps path) ts x vs
  | predicate {path : LocationPath} {predicate : Expr} {ts us vs : List Lexeme} {x : Parsed}
      (hStep : path.isStep = true)
      (h : Parses (.operand 0) ts (.expr predicate) (.rightBracket :: us))
      (hMore : Parses (.steps (.filter path predicate)) us x vs) :
      Parses (.steps path) (.leftBracket :: ts) x vs
  | noStep {path : LocationPath} {ts : List Lexeme} (hSlash : ts.head? ≠ some (.operator ['/']))
      (hBracket : ts.head? ≠ some .leftBracket) : Parses (.steps path) ts (.path path) ts
  | noArguments {ts : List Lexeme} :
      Parses .arguments (.rightParenthesis :: ts) (.arguments []) (.rightParenthesis :: ts)
  | arguments {argument : Expr} {arguments : List Expr} {ts us vs : List Lexeme}
      (h : Parses (.operand 0) ts (.expr argument) us)
      (hMore : Parses .moreArguments us (.arguments arguments) vs) :
      Parses .arguments ts (.arguments (argument :: arguments)) vs
  | comma {argument : Expr} {arguments : List Expr} {ts us : List Lexeme}
      (h : Parses .arguments ts (.arguments (argument :: arguments)) us) :
      Parses .moreArguments (.comma :: ts) (.arguments (argument :: arguments)) us
  | noComma {ts : List Lexeme} (hNext : ts.head? ≠ some .comma) :
      Parses .moreArguments ts (.arguments []) ts

/-- An operator is known by its sign. -/
theorem Operator.sign_injective {operator operator' : Operator}
    (h : operator.sign = operator'.sign) : operator = operator' := by
  cases operator <;> cases operator' <;> first | rfl | exact absurd h (by decide)

theorem CoreFunction.spelling_injective {function function' : CoreFunction}
    (h : function.spelling = function'.spelling) : function = function' := by
  cases function <;> cases function' <;> first | rfl | exact absurd h (by decide)

theorem Axis.name_injective {axis axis' : Axis} (h : axis.name = axis'.name) : axis = axis' := by
  cases axis <;> cases axis' <;> first | rfl | exact absurd h (by decide)

theorem Operator.sign_ne_slash (operator : Operator) : operator.sign ≠ ['/'] := by
  cases operator <;> decide

/-- A node test is known by its lexemes, and so is what follows it. -/
theorem WritesTest.unique {test test' : NodeTest} {ts ts' us us' : List Lexeme}
    (h : WritesTest test ts) (h' : WritesTest test' ts') (hSame : ts ++ us = ts' ++ us') :
    test = test' ∧ us = us' := by
  cases h <;> cases h' <;> simp_all

/-- A step is determined by its lexemes. -/
theorem WritesAxis.unique {axis axis' : Axis} {test test' : NodeTest}
    {xs xs' ts ts' us us' : List Lexeme} (hAxis : WritesAxis axis xs) (hTest : WritesTest test ts)
    (hAxis' : WritesAxis axis' xs') (hTest' : WritesTest test' ts')
    (hSame : xs ++ (ts ++ us) = xs' ++ (ts' ++ us')) :
    axis = axis' ∧ test = test' ∧ us = us' := by
  cases hAxis with
  | named =>
      cases hAxis' with
      | named =>
          simp only [List.cons_append, List.nil_append, List.cons.injEq, Lexeme.axis.injEq,
            true_and] at hSame
          exact ⟨Axis.name_injective hSame.1, hTest.unique hTest' hSame.2⟩
      | «attribute» => cases hSame
      | child => cases hTest' <;> cases hSame
  | «attribute» =>
      cases hAxis' with
      | named => cases hSame
      | «attribute» => exact ⟨rfl, hTest.unique hTest' (List.cons.inj hSame).2⟩
      | child => cases hTest' <;> cases hSame
  | child =>
      cases hAxis' with
      | named => cases hTest <;> cases hSame
      | «attribute» => cases hTest <;> cases hSame
      | child => exact ⟨rfl, hTest.unique hTest' hSame⟩

/-- The first lexeme of a path. -/
def Lexeme.startsPath : Lexeme → Bool
  | .dot | .star | .name _ | .nodeType _ | .axis _ | .atSign => true
  | _ => false

/-- The first lexeme of an operand that is no path. -/
def Lexeme.startsOther : Lexeme → Bool
  | .literal _ _ | .number _ | .function _ | .leftParenthesis => true
  | _ => false

/-- What is read as a path begins with the lexeme of one. -/
theorem startsPath_of_parses {ts us : List Lexeme} {x : Parsed} (h : Parses .path ts x us) :
    ∃ t more, ts = t :: more ∧ t.startsPath = true := by
  cases h with
  | here => exact ⟨_, _, rfl, rfl⟩
  | step hAxis hTest hTokens =>
      subst hTokens
      cases hAxis with
      | named => exact ⟨_, _, rfl, rfl⟩
      | «attribute» => exact ⟨_, _, rfl, rfl⟩
      | child => cases hTest <;> exact ⟨_, _, rfl, rfl⟩

theorem startsPath_of_parses_cons {t : Lexeme} {ts us : List Lexeme} {x : Parsed}
    (h : Parses .path (t :: ts) x us) : t.startsPath = true := by
  obtain ⟨t', more, hTokens, hStarts⟩ := startsPath_of_parses h
  cases hTokens
  exact hStarts

/-- A step does not begin with a dot. -/
theorem WritesAxis.ne_dot {axis : Axis} {test : NodeTest} {xs ts us vs : List Lexeme}
    (hAxis : WritesAxis axis xs) (hTest : WritesTest test ts) :
    xs ++ (ts ++ us) ≠ .dot :: vs := by
  intro hSame
  cases hAxis with
  | named => cases hSame
  | «attribute» => cases hSame
  | child => cases hTest <;> cases hSame

/-- What is read as an operand begins with one lexeme that tells whether it is a path. -/
theorem starts_of_parses {state : Reading} {ts us : List Lexeme} {x : Parsed}
    (h : Parses state ts x us) (hState : state = .primary ∨ ∃ level, state = .operand level) :
    ∃ t more, ts = t :: more ∧ (t.startsPath = true ∨ t.startsOther = true) := by
  induction h with
  | down _ _ _ ih => exact ih (Or.inr ⟨_, rfl⟩)
  | top _ _ _ ih => exact ih (Or.inl rfl)
  | path h =>
      obtain ⟨t, more, rfl, hStarts⟩ := startsPath_of_parses h
      exact ⟨t, more, rfl, Or.inl hStarts⟩
  | literal => exact ⟨_, _, rfl, Or.inr rfl⟩
  | number => exact ⟨_, _, rfl, Or.inr rfl⟩
  | call => exact ⟨_, _, rfl, Or.inr rfl⟩
  | group => exact ⟨_, _, rfl, Or.inr rfl⟩
  | _ => rcases hState with h | ⟨_, h⟩ <;> cases h

/-- No operand begins with a closing parenthesis, so that a call without arguments is no other
call. -/
theorem not_parses_operand_rightParenthesis {level : Nat} {ts us : List Lexeme} {x : Parsed} :
    ¬ Parses (.operand level) (.rightParenthesis :: ts) x us := by
  intro h
  obtain ⟨t, more, hTokens, hStarts⟩ := starts_of_parses h (Or.inr ⟨level, rfl⟩)
  cases hTokens
  rcases hStarts with hStarts | hStarts <;> cases hStarts

/-- In this state the parser can read nothing else from the lexemes, and leave nothing else. -/
def Determined (state : Reading) (ts : List Lexeme) (x : Parsed) (us : List Lexeme) : Prop :=
  ∀ x' us', Parses state ts x' us' → x = x' ∧ us = us'

namespace Determined

variable {state : Reading} {level : Nat} {e e' left : Expr} {path : LocationPath} {x : Parsed}
  {ts us vs ws : List Lexeme}

theorem expr_eq (h : Determined state ts (.expr e) us) (h' : Parses state ts (.expr e') vs) :
    e = e' ∧ us = vs := by
  obtain ⟨hSame, rfl⟩ := h _ _ h'
  exact ⟨Parsed.expr.inj hSame, rfl⟩

theorem arguments_eq {es es' : List Expr} (h : Determined state ts (.arguments es) us)
    (h' : Parses state ts (.arguments es') vs) : es = es' ∧ us = vs := by
  obtain ⟨hSame, rfl⟩ := h _ _ h'
  exact ⟨Parsed.arguments.inj hSame, rfl⟩

/-! An operand is read by way of the next level, or as a primary expression on the last one. -/

theorem down (hLevel : level < primaryLevel) (h : Determined (.operand (level + 1)) ts (.expr e) us)
    (hMore : Determined (.operators level e) us x vs) : Determined (.operand level) ts x vs := by
  intro x' vs' h'
  cases h' with
  | down _ hOperand hRest =>
      obtain ⟨rfl, rfl⟩ := h.expr_eq hOperand
      exact hMore _ _ hRest
  | top hLevel' => exact absurd hLevel hLevel'

theorem top (hLevel : ¬ level < primaryLevel) (h : Determined .primary ts (.expr e) us)
    (hMore : Determined (.operators level e) us x vs) : Determined (.operand level) ts x vs := by
  intro x' vs' h'
  cases h' with
  | down hLevel' => exact absurd hLevel' hLevel
  | top _ hPrimary hRest =>
      obtain ⟨rfl, rfl⟩ := h.expr_eq hPrimary
      exact hMore _ _ hRest

/-! Behind an operand the next lexeme is an operator of the level, or it is not. -/

theorem operator {operator : Operator} {right : Expr} (hLevel : operator.level = level)
    (hTokens : ts = .operator operator.sign :: us)
    (h : Determined (.operand (level + 1)) us (.expr right) vs)
    (hMore : Determined (.operators level (.binary operator left right)) vs x ws) :
    Determined (.operators level left) ts x ws := by
  intro x' ws' h'
  cases h' with
  | operator _ hTokens' hOperand hRest =>
      rw [hTokens] at hTokens'
      simp only [List.cons.injEq, Lexeme.operator.injEq] at hTokens'
      obtain ⟨hSign, rfl⟩ := hTokens'
      obtain rfl := Operator.sign_injective hSign
      obtain ⟨rfl, rfl⟩ := h.expr_eq hOperand
      exact hMore _ _ hRest
  | noOperator hNext => exact absurd (by rw [hTokens]; rfl) (hNext _ hLevel)

theorem noOperator (hNext : ∀ operator : Operator, operator.level = level →
      ts.head? ≠ some (.operator operator.sign)) :
    Determined (.operators level left) ts (.expr left) ts := by
  intro x' ts' h'
  cases h' with
  | operator hLevel hTokens => exact absurd (by rw [hTokens]; rfl) (hNext _ hLevel)
  | noOperator => exact ⟨rfl, rfl⟩

/-! The first lexeme of a primary expression tells what it is. -/

theorem ofPath (hPath : Parses .path ts (.path path) us)
    (h : Determined .path ts (.path path) us) : Determined .primary ts (.expr (.path path)) us := by
  intro x' us' h'
  cases h' with
  | path hRead =>
      obtain ⟨hSame, rfl⟩ := h _ _ hRead
      cases hSame
      exact ⟨rfl, rfl⟩
  | _ => cases startsPath_of_parses_cons hPath

theorem literal {mark : QuoteMark} {content : Text} :
    Determined .primary (.literal mark content :: ts) (.expr (.literal mark content)) ts := by
  intro x' us' h'
  cases h' with
  | path hPath => cases startsPath_of_parses_cons hPath
  | literal => exact ⟨rfl, rfl⟩

theorem number {digits : Text} : Determined .primary (.number digits :: ts)
    (.expr (.number (Nat.ofDigitChars 10 digits 0))) ts := by
  intro x' us' h'
  cases h' with
  | path hPath => cases startsPath_of_parses_cons hPath
  | number => exact ⟨rfl, rfl⟩

theorem call {name : Text} {function : CoreFunction} {arguments : List Expr}
    (hName : name = function.spelling)
    (h : Determined .arguments ts (.arguments arguments) (.rightParenthesis :: us)) :
    Determined .primary (.function name :: .leftParenthesis :: ts)
      (.expr (.call function arguments)) us := by
  intro x' us' h'
  cases h' with
  | path hPath => cases startsPath_of_parses_cons hPath
  | call hName' hRead =>
      obtain rfl := CoreFunction.spelling_injective (hName.symm.trans hName')
      obtain ⟨rfl, hRest⟩ := h.arguments_eq hRead
      cases hRest
      exact ⟨rfl, rfl⟩

theorem group {inner : Expr}
    (h : Determined (.operand 0) ts (.expr inner) (.rightParenthesis :: us)) :
    Determined .primary (.leftParenthesis :: ts) (.expr (.group inner)) us := by
  intro x' us' h'
  cases h' with
  | path hPath => cases startsPath_of_parses_cons hPath
  | group hRead =>
      obtain ⟨rfl, hRest⟩ := h.expr_eq hRead
      cases hRest
      exact ⟨rfl, rfl⟩

/-! A path begins with the dot or with a step. -/

theorem here (h : Determined (.steps .here) ts x us) : Determined .path (.dot :: ts) x us := by
  intro x' us' h'
  cases h' with
  | here hRead => exact h _ _ hRead
  | step hAxis hTest hTokens => exact absurd hTokens.symm (hAxis.ne_dot hTest)

theorem step {axis : Axis} {test : NodeTest} {xs ys : List Lexeme} (hAxis : WritesAxis axis xs)
    (hTest : WritesTest test ys) (hTokens : ts = xs ++ (ys ++ us))
    (h : Determined (.steps (.step axis test)) us x vs) : Determined .path ts x vs := by
  intro x' vs' h'
  cases h' with
  | here => exact absurd hTokens.symm (hAxis.ne_dot hTest)
  | step hAxis' hTest' hTokens' hRead =>
      obtain ⟨rfl, rfl, rfl⟩ := hAxis.unique hTest hAxis' hTest' (hTokens.symm.trans hTokens')
      exact h _ _ hRead

/-! Behind a step there is a slash, a bracket, or the end of the path. -/

theorem slash {axis : Axis} {test : NodeTest} {xs ys : List Lexeme} (hAxis : WritesAxis axis xs)
    (hTest : WritesTest test ys) (hTokens : ts = .operator ['/'] :: (xs ++ (ys ++ us)))
    (h : Determined (.steps (.next path axis test)) us x vs) :
    Determined (.steps path) ts x vs := by
  intro x' vs' h'
  cases h' with
  | slash hAxis' hTest' hTokens' hRead =>
      have hSame := (List.cons.inj (hTokens.symm.trans hTokens')).2
      obtain ⟨rfl, rfl, rfl⟩ := hAxis.unique hTest hAxis' hTest' hSame
      exact h _ _ hRead
  | predicate => cases hTokens
  | noStep hSlash => exact absurd (by rw [hTokens]; rfl) hSlash

theorem predicate {predicate : Expr}
    (h : Determined (.operand 0) ts (.expr predicate) (.rightBracket :: us))
    (hMore : Determined (.steps (.filter path predicate)) us x vs) :
    Determined (.steps path) (.leftBracket :: ts) x vs := by
  intro x' vs' h'
  cases h' with
  | slash _ _ hTokens => cases hTokens
  | predicate _ hRead hRest =>
      obtain ⟨rfl, hSame⟩ := h.expr_eq hRead
      cases hSame
      exact hMore _ _ hRest
  | noStep _ hBracket => exact absurd rfl hBracket

theorem noStep (hSlash : ts.head? ≠ some (.operator ['/']))
    (hBracket : ts.head? ≠ some .leftBracket) : Determined (.steps path) ts (.path path) ts := by
  intro x' ts' h'
  cases h' with
  | slash _ _ hTokens => exact absurd (by rw [hTokens]; rfl) hSlash
  | predicate => exact absurd rfl hBracket
  | noStep => exact ⟨rfl, rfl⟩

/-! The arguments of a call end at its parenthesis, which begins no operand. -/

theorem noArguments :
    Determined .arguments (.rightParenthesis :: ts) (.arguments []) (.rightParenthesis :: ts) := by
  intro x' us' h'
  cases h' with
  | noArguments => exact ⟨rfl, rfl⟩
  | arguments hRead => exact absurd hRead not_parses_operand_rightParenthesis

theorem cons {argument : Expr} {arguments : List Expr}
    (hFirst : Parses (.operand 0) ts (.expr argument) us)
    (h : Determined (.operand 0) ts (.expr argument) us)
    (hMore : Determined .moreArguments us (.arguments arguments) vs) :
    Determined .arguments ts (.arguments (argument :: arguments)) vs := by
  intro x' vs' h'
  cases h' with
  | noArguments => exact absurd hFirst not_parses_operand_rightParenthesis
  | arguments hRead hRest =>
      obtain ⟨rfl, rfl⟩ := h.expr_eq hRead
      obtain ⟨rfl, rfl⟩ := hMore.arguments_eq hRest
      exact ⟨rfl, rfl⟩

theorem comma {es : List Expr} (h : Determined .arguments ts (.arguments es) us) :
    Determined .moreArguments (.comma :: ts) (.arguments es) us := by
  intro x' us' h'
  cases h' with
  | comma hRead => exact h _ _ hRead
  | noComma hNext => exact absurd rfl hNext

theorem noComma (hNext : ts.head? ≠ some .comma) :
    Determined .moreArguments ts (.arguments []) ts := by
  intro x' ts' h'
  cases h' with
  | comma => exact absurd rfl hNext
  | noComma => exact ⟨rfl, rfl⟩

end Determined

/-- The parser has never more than one way to go on. -/
theorem Parses.determined {state : Reading} {ts us : List Lexeme} {x : Parsed}
    (h : Parses state ts x us) : Determined state ts x us := by
  induction h with
  | down hLevel _ _ ih ihMore => exact .down hLevel ih ihMore
  | top hLevel _ _ ih ihMore => exact .top hLevel ih ihMore
  | operator hLevel hTokens _ _ ih ihMore => exact .operator hLevel hTokens ih ihMore
  | noOperator hNext => exact .noOperator hNext
  | path hPath ih => exact .ofPath hPath ih
  | literal => exact .literal
  | number => exact .number
  | call hName _ ih => exact .call hName ih
  | group _ ih => exact .group ih
  | here _ ih => exact .here ih
  | step hAxis hTest hTokens _ ih => exact .step hAxis hTest hTokens ih
  | slash hAxis hTest hTokens _ ih => exact .slash hAxis hTest hTokens ih
  | predicate _ _ _ ih ihMore => exact .predicate ih ihMore
  | noStep hSlash hBracket => exact .noStep hSlash hBracket
  | noArguments => exact .noArguments
  | arguments hFirst _ ih ihMore => exact .cons hFirst ih ihMore
  | comma _ ih => exact .comma ih
  | noComma hNext => exact .noComma hNext

/-- What may stand behind an operand of the level: no operator that would take it as its left
operand, and nothing that goes on with a path. -/
structure Follows (level : Nat) (ts : List Lexeme) : Prop where
  operator : ∀ operator : Operator, level ≤ operator.level →
    ts.head? ≠ some (.operator operator.sign)
  slash : ts.head? ≠ some (.operator ['/'])
  bracket : ts.head? ≠ some .leftBracket

/-- What may follow a loose operand may follow a tighter one. -/
theorem Follows.mono {level level' : Nat} {ts : List Lexeme} (h : Follows level ts)
    (hLevel : level ≤ level') : Follows level' ts where
  operator operator hOperator := h.operator operator (Nat.le_trans hLevel hOperator)
  slash := h.slash
  bracket := h.bracket

/-- The parser follows a derivation: it comes to the end of what is derived, with it in hand, and
goes on from there. -/
def Phrase.Followed : Phrase → List Lexeme → Prop
  | .operand level e, ts => ∀ us x vs, Follows (level + 1) us →
      Parses (.operators level e) us x vs → Parses (.operand level) (ts ++ us) x vs
  | .path p, ts => ∀ us x vs, Parses (.steps p) us x vs → Parses .path (ts ++ us) x vs
  | .arguments es, ts => ∀ us, Parses .arguments (ts ++ .rightParenthesis :: us)
      (.arguments es) (.rightParenthesis :: us)

/-- A derived operand is read if what follows may stand behind it. -/
theorem parses_operand_of_followed {level : Nat} {e : Expr} {ts us : List Lexeme}
    (h : (Phrase.operand level e).Followed ts) (hFollows : Follows level us) :
    Parses (.operand level) (ts ++ us) (.expr e) us :=
  h us _ us (hFollows.mono (Nat.le_succ level))
    (.noOperator fun operator hLevel => hFollows.operator operator (Nat.le_of_eq hLevel.symm))

/-- An operand without operators is followed by the loops that find none. -/
theorem followed_of_primary {e : Expr} {ts : List Lexeme}
    (h : ∀ us, us.head? ≠ some (.operator ['/']) → us.head? ≠ some .leftBracket →
      Parses .primary (ts ++ us) (.expr e) us) : (Phrase.operand primaryLevel e).Followed ts :=
  fun us _ _ hFollows hMore =>
    .top (Nat.lt_irrefl _) (h us hFollows.slash hFollows.bracket) hMore

/-- Behind an operand anything may stand that is no operator and opens no predicate. -/
theorem follows_of_head {level : Nat} {t : Lexeme} {ts : List Lexeme}
    (hOperator : ∀ sign, t ≠ .operator sign) (hBracket : t ≠ .leftBracket) :
    Follows level (t :: ts) where
  operator _ _ h := hOperator _ (Option.some.inj h)
  slash h := hOperator _ (Option.some.inj h)
  bracket h := hBracket (Option.some.inj h)

/-- Every derivation is followed by the parser. -/
theorem followed_of_written {phrase : Phrase} {ts : List Lexeme} (h : Written phrase ts) :
    phrase.Followed ts := by
  induction h with
  | next hLevel _ ih =>
      intro us x vs hFollows hMore
      exact .down hLevel (parses_operand_of_followed ih hFollows) hMore
  | @binary operator left right ls rs _ _ ihLeft ihRight =>
      intro us x vs hFollows hMore
      have hRight := parses_operand_of_followed ihRight hFollows
      have hNext : Follows (operator.level + 1) (.operator operator.sign :: (rs ++ us)) := by
        constructor
        · intro operator' hLevel hSame
          obtain rfl := Operator.sign_injective (Lexeme.operator.inj (Option.some.inj hSame))
          omega
        · intro hSame
          exact operator.sign_ne_slash (Lexeme.operator.inj (Option.some.inj hSame))
        · simp
      rw [List.append_assoc, List.cons_append]
      exact ihLeft _ x vs hNext (.operator rfl rfl hRight hMore)
  | path _ ih =>
      exact followed_of_primary fun us hSlash hBracket =>
        .path (ih us _ us (.noStep hSlash hBracket))
  | literal => exact followed_of_primary fun us _ _ => .literal
  | number => exact followed_of_primary fun us _ _ => .number
  | call _ ih =>
      refine followed_of_primary fun us _ _ => ?_
      rw [List.cons_append, List.cons_append, List.append_assoc]
      exact .call rfl (ih us)
  | group _ ih =>
      refine followed_of_primary fun us _ _ => ?_
      rw [List.cons_append, List.append_assoc]
      exact .group (parses_operand_of_followed ih (follows_of_head (by simp) (by simp)))
  | here => exact fun us x vs hMore => .here hMore
  | step hAxis hTest =>
      intro us x vs hMore
      exact .step hAxis hTest (List.append_assoc ..) hMore
  | slash _ hAxis hTest ih =>
      intro us x vs hMore
      rw [List.append_assoc]
      exact ih _ x vs (.slash hAxis hTest (by simp) hMore)
  | predicate hStep _ _ ihPath ih =>
      intro us x vs hMore
      rw [List.append_assoc, List.cons_append, List.append_assoc]
      exact ihPath _ x vs (.predicate hStep
        (parses_operand_of_followed ih (follows_of_head (by simp) (by simp))) hMore)
  | noArguments => exact fun us => .noArguments
  | oneArgument _ ih =>
      intro us
      exact .arguments (parses_operand_of_followed ih (follows_of_head (by simp) (by simp)))
        (.noComma (by simp))
  | moreArguments _ _ ih ihMore =>
      intro us
      rw [List.append_assoc, List.cons_append]
      exact .arguments (parses_operand_of_followed ih (follows_of_head (by simp) (by simp)))
        (.comma (ihMore us))

/-- Lexemes are derived from no more than one expression. -/
theorem written_unique {e e' : Expr} {ts : List Lexeme} (h : Written (.operand 0 e) ts)
    (h' : Written (.operand 0 e') ts) : e = e' := by
  have hEnd : Follows 0 [] := ⟨by simp, by simp, by simp⟩
  have hRead := parses_operand_of_followed (followed_of_written h) hEnd
  have hRead' := parses_operand_of_followed (followed_of_written h') hEnd
  exact (hRead.determined.expr_eq hRead').1

/-- A text is read as no more than one expression. -/
theorem NameClass.Reads.unique {N : NameClass} {t : Text} {e e' : Expr} (h : N.Reads t e)
    (h' : N.Reads t e') : e = e' := by
  obtain ⟨ts, hLex, hWritten⟩ := h
  obtain ⟨us, hLex', hWritten'⟩ := h'
  rw [hLex] at hLex'
  cases hLex'
  exact written_unique hWritten hWritten'

end SelectorXPath.XPath
