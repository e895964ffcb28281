import SelectorXPath.Selector.Parts
import SelectorXPath.Token.Scan

/-!
# Reading selectors

The grammar of selector lists, by recursive descent. White space between two compounds is a
combinator and has no meaning anywhere else.

Lists nest: `:not()` and `:has()` hold a list in parentheses. How deep they may nest is a number
given beforehand, and the parser of a group is built by recursion on that number. The loops inside
one group end because every link of a chain and every part of a compound takes at least one token.

`Selector.parse` reads a selector list from its source. `TokenReader` reads one list after the
other from the same tokens; it stands where the last attempt stopped, and an attempt that failed
inside of groups has used up their share of the nesting for good.
-/

namespace SelectorXPath

open SelectorXPath.Text

/-- Reads a list in parentheses, from the opening one on. It is told the offset of the pseudo-class
that the list belongs to, where nesting is reported that goes too deep. -/
structure GroupParser where
  read : Nat → Parser SelectorList
  bounded : ∀ offset, (read offset).Bounded

namespace Parser

/-- The name of a pseudo-class as the grammar knows it, in lower case and without escapes. -/
def pseudoName (token : Token) : Text :=
  lower (unescape (token.text.drop 1))

/-- Reads a pseudo-class that has an opening parenthesis behind its name. `rest` is what follows
the parenthesis. -/
def functional (s : Setting) (groups : GroupParser) (token parenthesis : Token)
    (rest : List Token) : Outcome Simple :=
  match FunctionalClass.ofName? (pseudoName token) with
  | some (.nth counting) => (positions s parenthesis.stop rest).map (.nth counting)
  | some .not => (groups.read token.offset (parenthesis :: rest)).map .not
  | some .has => (groups.read token.offset (parenthesis :: rest)).map .has
  | some .contains => (textArgument s rest).map .contains
  | none =>
    .error ⟨token.offset, .supported (':' :: pseudoName token ++ ['(', ')'])⟩ 0
      (parenthesis :: rest)

def plain (token : Token) (rest : List Token) : Outcome Simple :=
  match PseudoClass.ofName? (pseudoName token) with
  | some pseudoClass => .ok (.pseudo pseudoClass) rest
  | none =>
    if (FunctionalClass.ofName? (pseudoName token)).isSome then
      .error ⟨token.stop, .argument (pseudoName token)⟩ 0 rest
    else .error ⟨token.offset, .supported (':' :: pseudoName token)⟩ 0 rest

def pseudo (s : Setting) (groups : GroupParser) (token : Token) : Parser Simple
  | [] => plain token []
  | next :: rest =>
    if next.kind = .parenthesesStart then functional s groups token next rest
    else plain token (next :: rest)

/-- Even a failure inside the argument leaves an end of what stood from the parenthesis on. -/
theorem functional_bounded (s : Setting) (groups : GroupParser) (token parenthesis : Token)
    (rest : List Token) :
    (functional s groups token parenthesis rest).rest <:+ parenthesis :: rest := by
  unfold functional
  split
  · rw [Outcome.rest_map]; exact (positions_bounded s _ _).trans (List.suffix_cons _ _)
  · rw [Outcome.rest_map]; exact groups.bounded _ _
  · rw [Outcome.rest_map]; exact groups.bounded _ _
  · rw [Outcome.rest_map]; exact (textArgument_bounded s _).trans (List.suffix_cons _ _)
  · exact List.suffix_refl _

theorem plain_bounded (token : Token) : Bounded (plain token) := by
  intro rest
  unfold plain
  split
  · exact List.suffix_refl _
  · split <;> exact List.suffix_refl _

/-- The groups inside of a pseudo-class are read by a parser that carries its own bound. -/
theorem pseudo_bounded (s : Setting) (groups : GroupParser) (token : Token) :
    (pseudo s groups token).Bounded := by
  intro tokens
  cases tokens with
  | nil => exact plain_bounded token []
  | cons next rest =>
    simp only [pseudo]
    split
    · exact functional_bounded s groups token next rest
    · exact plain_bounded token (next :: rest)

/-- Reads one class, id, attribute or pseudo-class, if one stands in front. A name in this place
would be a type selector behind other conditions. -/
def part (s : Setting) (groups : GroupParser) : Parser (Option Simple)
  | [] => .ok none []
  | token :: tokens =>
    match token.kind with
    | .classSelector => .ok (some (.class (unescape (token.text.drop 1)))) tokens
    | .idSelector => .ok (some (.id (unescape (token.text.drop 1)))) tokens
    | .attributeStart => (attributeTest s tokens).map fun test => some (.attribute test)
    | .pseudoClass => (pseudo s groups token tokens).map some
    | .pseudoElement => fail s (.supported token.text) (token :: tokens)
    | .identifier | .universal | .namespaceSeparator =>
      fail s .typeSelectorFirst (token :: tokens)
    | _ => .ok none (token :: tokens)

theorem part_bounded (s : Setting) (groups : GroupParser) : (part s groups).Bounded := by
  intro tokens
  cases tokens with
  | nil => exact List.suffix_refl _
  | cons token tokens =>
    simp only [part]
    split
    · exact List.suffix_cons _ _
    · exact List.suffix_cons _ _
    · rw [Outcome.rest_map]
      exact (attributeTest_bounded s _).trans (List.suffix_cons _ _)
    · rw [Outcome.rest_map]
      exact (pseudo_bounded s groups _ _).trans (List.suffix_cons _ _)
    · exact List.suffix_refl _
    · exact List.suffix_refl _
    · exact List.suffix_refl _
    · exact List.suffix_refl _
    · exact List.suffix_refl _

/-- A part takes at least one token. The loop over the parts of a compound ends by this. -/
theorem length_lt_of_part {s : Setting} {groups : GroupParser} {tokens rest : List Token}
    {simple : Simple} (h : part s groups tokens = .ok (some simple) rest) :
    rest.length < tokens.length := by
  cases tokens with
  | nil => simp [part] at h
  | cons token tokens =>
    suffices rest <:+ tokens from Nat.lt_succ_of_le this.length_le
    simp only [part] at h
    split at h
    · exact Outcome.suffix_of_eq_ok h (List.suffix_refl _)
    · exact Outcome.suffix_of_eq_ok h (List.suffix_refl _)
    · refine Outcome.suffix_of_eq_ok h ?_
      rw [Outcome.rest_map]
      exact attributeTest_bounded s tokens
    · refine Outcome.suffix_of_eq_ok h ?_
      rw [Outcome.rest_map]
      exact pseudo_bounded s groups token tokens
    · cases h
    · cases h
    · cases h
    · cases h
    · cases h

def parts (s : Setting) (groups : GroupParser) (tokens : List Token) : Outcome (List Simple) :=
  match _h : part s groups tokens with
  | .ok (some simple) rest => (parts s groups rest).map (simple :: ·)
  | .ok none rest => .ok [] rest
  | .error fault count rest => .error fault count rest
termination_by tokens.length
decreasing_by exact length_lt_of_part _h

theorem parts_bounded (s : Setting) (groups : GroupParser) : Bounded (parts s groups) := by
  intro tokens
  fun_induction parts s groups tokens with
  | case1 tokens simple rest h ih =>
    rw [Outcome.rest_map]
    exact ih.trans ((part_bounded s groups).rest_of_ok h)
  | case2 tokens rest h => exact (part_bounded s groups).rest_of_ok h
  | case3 tokens fault count rest h => exact (part_bounded s groups).rest_of_error h

/-- The condition that a qualified name in front of a compound is. -/
def Simple.ofName : Qualifier × Option Text → Simple
  | (qualifier, some name) => .type name qualifier
  | (qualifier, none) => .universal qualifier

/-- Reads a compound, which must not be empty. -/
def compound (s : Setting) (groups : GroupParser) : Parser Compound := fun tokens =>
  (qualifiedName s .elementName tokens).andThen fun name rest =>
    (parts s groups rest).andThen fun parts rest =>
      match name, parts with
      | none, [] => fail s .selector rest
      | none, parts => .ok ⟨nextOffset s tokens, parts⟩ rest
      | some name, parts => .ok ⟨nextOffset s tokens, Simple.ofName name :: parts⟩ rest

theorem compound_bounded (s : Setting) (groups : GroupParser) : (compound s groups).Bounded := by
  intro tokens
  refine (Outcome.rest_andThen fun name rest => ?_).trans (qualifiedName_bounded s _ tokens)
  refine (Outcome.rest_andThen fun parts rest => ?_).trans (parts_bounded s groups rest)
  split <;> exact List.suffix_refl _

def startsCompound : Token.Kind → Bool
  | .identifier | .universal | .namespaceSeparator | .classSelector | .idSelector
  | .attributeStart | .pseudoClass | .pseudoElement => true
  | _ => false

/-- Reads the combinator between two compounds and the white space around it. White space alone
combines if a compound follows; otherwise the chain ends here. -/
def link : Parser (Option Combinator) := fun tokens =>
  match dropBlank tokens with
  | [] => .ok none []
  | token :: rest =>
    if token.kind = .combinator then
      match Combinator.ofSymbol? token.text with
      | some combinator => .ok (some combinator) (dropBlank rest)
      | none => .error ⟨token.offset, .selector⟩ 0 rest
    else if nextKind tokens = .whitespace ∧ startsCompound token.kind then
      .ok (some .descendant) (token :: rest)
    else .ok none (token :: rest)

theorem link_bounded : link.Bounded := by
  intro tokens
  have hBlank := dropBlank_suffix tokens
  unfold link
  split
  · exact List.nil_suffix
  · rename_i token rest hRest
    rw [hRest] at hBlank
    split
    · split
      · exact (dropBlank_suffix rest).trans ((List.suffix_cons _ _).trans hBlank)
      · exact (List.suffix_cons _ _).trans hBlank
    · split <;> exact hBlank

/-- White space in front is a token, so that there are fewer of them behind it. -/
theorem length_dropBlank_lt {tokens : List Token} (h : nextKind tokens = .whitespace) :
    (dropBlank tokens).length < tokens.length := by
  cases tokens with
  | nil => simp [nextKind] at h
  | cons token tokens =>
    simp only [nextKind] at h
    simp only [dropBlank, List.dropWhile_cons, h, decide_true, if_true, List.length_cons]
    exact Nat.lt_succ_of_le (List.dropWhile_suffix _).length_le

/-- A combinator takes at least one token, white space included. The loop over a chain ends by
this. -/
theorem length_lt_of_link {tokens rest : List Token} {combinator : Combinator}
    (h : link tokens = .ok (some combinator) rest) : rest.length < tokens.length := by
  have hBlank := (dropBlank_suffix tokens).length_le
  unfold link at h
  split at h
  · simp at h
  · rename_i token rest' hRest
    rw [hRest, List.length_cons] at hBlank
    split at h
    · split at h
      · simp only [Outcome.ok.injEq] at h
        obtain ⟨-, rfl⟩ := h
        have := (dropBlank_suffix rest').length_le
        omega
      · simp at h
    · split at h
      · rename_i hSpace
        simp only [Outcome.ok.injEq] at h
        obtain ⟨-, rfl⟩ := h
        have := length_dropBlank_lt hSpace.1
        rwa [hRest] at this
      · simp at h

/-- Reads the compounds that are joined to the chain `left`. -/
def chain (s : Setting) (groups : GroupParser) (left : Complex) (tokens : List Token) :
    Outcome Complex :=
  match _h : link tokens with
  | .ok none rest => .ok left rest
  | .error fault count rest => .error fault count rest
  | .ok (some combinator) rest =>
    match _h' : compound s groups rest with
    | .ok right rest => chain s groups (left.joined combinator right) rest
    | .error fault count rest => .error fault count rest
termination_by tokens.length
decreasing_by
  exact Nat.lt_of_le_of_lt ((compound_bounded s groups).length_le_of_ok _h') (length_lt_of_link _h)

theorem chain_bounded (s : Setting) (groups : GroupParser) (left : Complex) :
    Bounded (chain s groups left) := by
  intro tokens
  fun_induction chain s groups left tokens with
  | case1 left tokens rest h => exact link_bounded.rest_of_ok h
  | case2 left tokens fault count rest h => exact link_bounded.rest_of_error h
  | case3 left tokens combinator rest h right rest' h' ih =>
    exact ih.trans (((compound_bounded s groups).rest_of_ok h').trans
      (link_bounded.rest_of_ok h))
  | case4 left tokens combinator rest h fault count rest' h' =>
    exact ((compound_bounded s groups).rest_of_error h').trans (link_bounded.rest_of_ok h)

def complex (s : Setting) (groups : GroupParser) : Parser Complex := fun tokens =>
  (compound s groups tokens).andThen fun first rest => chain s groups (.single first) rest

theorem complex_bounded (s : Setting) (groups : GroupParser) : (complex s groups).Bounded := by
  intro tokens
  refine (Outcome.rest_andThen fun _ rest => ?_).trans (compound_bounded s groups tokens)
  exact chain_bounded s groups _ rest

/-- What a list is asked to end with when it ends with something else. -/
def listEnd : Token.Kind → Expected
  | .eof => .endOfInput
  | _ => .delimiter ')'

/-- Reads one selector of a list with the white space around it. -/
def alternative (s : Setting) (groups : GroupParser) : Parser Complex := fun tokens =>
  (complex s groups (dropBlank tokens)).andThen fun selector rest => .ok selector (dropBlank rest)

theorem alternative_bounded (s : Setting) (groups : GroupParser) :
    (alternative s groups).Bounded := by
  intro tokens
  refine (Outcome.rest_andThen fun _ rest => ?_).trans
    ((complex_bounded s groups _).trans (dropBlank_suffix tokens))
  exact dropBlank_suffix rest

/-- Reads selectors with commas between them, up to a token of the kind `close`, which is not read.
-/
def list (s : Setting) (groups : GroupParser) (close : Token.Kind) (tokens : List Token) :
    Outcome SelectorList :=
  match _h : alternative s groups tokens with
  | .error fault count rest => .error fault count rest
  | .ok selector [] =>
    if close = .eof then .ok [selector] [] else fail s (listEnd close) []
  | .ok selector (token :: rest) =>
    if token.kind = .separator then (list s groups close rest).map (selector :: ·)
    else if token.kind = close then .ok [selector] (token :: rest)
    else fail s (listEnd close) (token :: rest)
termination_by tokens.length
decreasing_by
  exact Nat.lt_of_succ_le ((alternative_bounded s groups).length_le_of_ok _h)

/-- However deep the groups nest that `groups` reads, a list leaves an end of its tokens. -/
theorem list_bounded (s : Setting) (groups : GroupParser) (close : Token.Kind) :
    Bounded (list s groups close) := by
  intro tokens
  fun_induction list s groups close tokens with
  | case1 tokens fault count rest h => exact (alternative_bounded s groups).rest_of_error h
  | case2 tokens selector h => exact List.nil_suffix
  | case3 tokens selector h => exact List.nil_suffix
  | case4 tokens selector token rest h hKind ih =>
    rw [Outcome.rest_map]
    exact ih.trans ((List.suffix_cons _ _).trans ((alternative_bounded s groups).rest_of_ok h))
  | case5 tokens selector token rest h hKind hClose =>
    exact (alternative_bounded s groups).rest_of_ok h
  | case6 tokens selector token rest h hKind hClose =>
    exact (alternative_bounded s groups).rest_of_ok h

/-- Reads groups that hold at most `allowance` groups inside each other, themselves included. -/
def groups (s : Setting) : (allowance : Nat) → GroupParser
  | 0 =>
    { read := fun offset tokens => .error ⟨offset, .nesting s.limit⟩ 0 tokens
      bounded := fun _ _ => List.suffix_refl _ }
  | allowance + 1 =>
    { read := fun _ tokens =>
        (list s (groups s allowance) .parenthesesEnd (tokens.drop 1)).inGroup.andThen
          fun selectors rest => .ok selectors (rest.drop 1)
      bounded := by
        intro _ tokens
        refine (Outcome.rest_andThen fun _ rest => ?_).trans ?_
        · exact List.drop_suffix 1 rest
        · rw [Outcome.rest_inGroup]
          exact (list_bounded s _ _ _).trans (List.drop_suffix 1 tokens) }

end Parser

/-! ### Selectors as text -/

/-- Tokens that are being read. -/
structure TokenReader where
  /-- The tokens that have not been read, without the one that marks the end. -/
  tokens : List Token
  setting : Setting
  /-- How many groups count as open. -/
  depth : Nat

namespace TokenReader

/-- Where tokens end: at the mark of the end if it is the last of them, else behind the last. -/
def stopOf (tokens : List Token) : Nat :=
  match tokens.getLast? with
  | none => 0
  | some token => if token.kind = .eof then token.offset else token.stop

/-- The tokens without a mark of the end behind them. -/
def withoutEnd (tokens : List Token) : List Token :=
  match tokens.getLast? with
  | none => []
  | some token => if token.kind = .eof then tokens.dropLast else tokens

/-- A reader at the first of the tokens, which does not see comments. -/
def start (limit : Nat) (tokens : List Token) : TokenReader :=
  let visible := tokens.filter (fun token => !token.kind.isComment)
  ⟨withoutEnd visible, ⟨stopOf visible, limit⟩, 0⟩

def outcome (r : TokenReader) : Outcome SelectorList :=
  Parser.list r.setting (Parser.groups r.setting (r.setting.limit - r.depth)) .eof r.tokens

/-- Reads a selector list to the end of the tokens. -/
def next (r : TokenReader) : Except SyntaxError SelectorList × TokenReader :=
  match r.outcome with
  | .ok list rest => (.ok list, { r with tokens := rest })
  | .error fault groups rest =>
    (.error fault, { r with tokens := rest, depth := r.depth + groups })

end TokenReader

namespace Selector

/-- How deep groups may nest unless a caller says otherwise. -/
def defaultLimit : Nat := 32

/-- How a selector is at fault whose characters cannot be scanned. A bracket or parenthesis that is
still open at the end is a delimiter that the grammar misses there. -/
def scanError (source : Text) (e : LexError) : SelectorError :=
  match e.fault with
  | .unterminated .attribute => .grammatical ⟨source.byteLength, .delimiter ']'⟩
  | .unterminated .argument => .grammatical ⟨source.byteLength, .delimiter ')'⟩
  | _ => .lexical e

/-- Reads a selector list in which groups nest at most `limit` deep. -/
def parse (source : Text) (limit : Nat) : Except SelectorError SelectorList :=
  match tokenize source with
  | .error e => .error (scanError source e)
  | .ok tokens => (TokenReader.start limit tokens).next.1.mapError .grammatical

end Selector

end SelectorXPath
