import SelectorXPath.Proofs.Selector.Parallel

/-! Where the grammar reports its errors. An attempt fails at the start of a token it was given, at
the end of one, or where the tokens end. What has no translation is reported at the pseudo-class or
pseudo-element that names it. No more groups are open where an attempt fails than were allowed. -/

namespace SelectorXPath

/-- Whether something was found that has no translation. -/
def Expected.isUnsupported : Expected → Bool
  | .supported _ => true
  | _ => false

/-- The error is reported at the start or at the end of one of the tokens, or where the tokens end.
-/
inductive SyntaxError.StandsIn (stop : Nat) (tokens : List Token) : SyntaxError → Prop where
  | atEnd {expected : Expected} (hExpected : expected.isUnsupported = false) :
      StandsIn stop tokens ⟨stop, expected⟩
  | before {t : Token} {expected : Expected} (ht : t ∈ tokens)
      (hExpected : expected.isUnsupported = false) :
      StandsIn stop tokens ⟨t.offset, expected⟩
  | behind {t : Token} {expected : Expected} (ht : t ∈ tokens)
      (hExpected : expected.isUnsupported = false) :
      StandsIn stop tokens ⟨t.stop, expected⟩
  | unsupported {t : Token} {written : Text} (ht : t ∈ tokens)
      (hKind : t.kind = .pseudoClass ∨ t.kind = .pseudoElement) :
      StandsIn stop tokens ⟨t.offset, .supported written⟩

namespace Outcome

/-- If the attempt fails, it does so at one of the tokens or where they end, and inside of at most
`allowance` groups. -/
def FailsIn {α : Type} (stop : Nat) (tokens : List Token) (allowance : Nat) : Outcome α → Prop
  | .ok _ _ => True
  | .error fault groups _ => fault.StandsIn stop tokens ∧ groups ≤ allowance

section

variable {α β : Type} {stop allowance : Nat} {tokens : List Token} {o : Outcome α}

theorem FailsIn.map {f : α → β} (h : FailsIn stop tokens allowance o) :
    FailsIn stop tokens allowance (o.map f) := by
  cases o with
  | ok => trivial
  | error => exact h

/-- A failure inside of a group is inside of one group more. -/
theorem FailsIn.inGroup (h : FailsIn stop tokens allowance o) :
    FailsIn stop tokens (allowance + 1) o.inGroup := by
  cases o with
  | ok => trivial
  | error => exact ⟨h.1, Nat.succ_le_succ h.2⟩

/-- Of two steps the one that fails says where the failure lies. -/
theorem FailsIn.andThen {next : α → List Token → Outcome β} (h : FailsIn stop tokens allowance o)
    (hNext : ∀ value rest, o = .ok value rest →
      FailsIn stop tokens allowance (next value rest)) :
    FailsIn stop tokens allowance (o.andThen next) := by
  cases o with
  | ok value rest => exact hNext value rest rfl
  | error => exact h

end

end Outcome

namespace Parser

open SelectorXPath.Outcome SyntaxError

section

variable {α : Type} {s : Setting} {allowance : Nat} {all tokens : List Token}

/-- Fails at one of the tokens, or where they end. -/
theorem fail_failsIn (hTokens : tokens <:+ all) {expected : Expected}
    (hExpected : expected.isUnsupported = false) :
    FailsIn s.stop all allowance (fail (α := α) s expected tokens) := by
  cases tokens with
  | nil => exact ⟨.atEnd hExpected, Nat.zero_le _⟩
  | cons t tokens => exact ⟨.before (hTokens.subset List.mem_cons_self) hExpected, Nat.zero_le _⟩

/-- A missing token is reported where it is missing, or where the tokens end. -/
theorem expect_failsIn (hTokens : tokens <:+ all) (kind : Token.Kind) (delimiter : Char) :
    FailsIn s.stop all allowance (expect s kind delimiter tokens) := by
  cases tokens with
  | nil => exact fail_failsIn hTokens rfl
  | cons t tokens =>
      rw [expect]
      split
      · trivial
      · exact fail_failsIn hTokens rfl

theorem localName_failsIn (hTokens : tokens <:+ all) {expected : Expected}
    (hExpected : expected.isUnsupported = false) :
    FailsIn s.stop all allowance (localName s expected tokens) := by
  cases tokens with
  | nil => exact fail_failsIn hTokens hExpected
  | cons t tokens =>
      rw [localName]
      split
      · trivial
      · exact fail_failsIn hTokens hExpected

/-- Names are never reported as unsupported. -/
theorem qualifiedName_failsIn (hTokens : tokens <:+ all) {expected : Expected}
    (hExpected : expected.isUnsupported = false) :
    FailsIn s.stop all allowance (qualifiedName s expected tokens) := by
  cases tokens with
  | nil => trivial
  | cons t tokens =>
      have hRest : tokens <:+ all := (List.suffix_cons _ _).trans hTokens
      rw [qualifiedName]
      split <;> split
      · exact (localName_failsIn ((List.drop_suffix 1 tokens).trans hRest) hExpected).map
      · trivial
      · exact (localName_failsIn hRest hExpected).map
      · trivial

/-- A string that breaks off is reported at the token that is no part of it, or where the tokens
end. -/
theorem stringText_failsIn (mark : QuoteMark) (hTokens : tokens <:+ all) :
    FailsIn s.stop all allowance (stringText s mark tokens) := by
  induction tokens with
  | nil => exact fail_failsIn hTokens rfl
  | cons t tokens ih =>
      have hRest := ih ((List.suffix_cons _ _).trans hTokens)
      rw [stringText]
      split
      · exact hRest.map
      · exact hRest.map
      · split
        · trivial
        · exact ⟨.before (hTokens.subset List.mem_cons_self) rfl, Nat.zero_le _⟩

theorem value_failsIn (hTokens : tokens <:+ all) :
    FailsIn s.stop all allowance (value s tokens) := by
  cases tokens with
  | nil => exact fail_failsIn hTokens rfl
  | cons t tokens =>
      rw [value]
      split
      · trivial
      · trivial
      · exact stringText_failsIn _ ((List.suffix_cons _ _).trans hTokens)
      · exact fail_failsIn hTokens rfl

theorem comparison_failsIn (hTokens : tokens <:+ all) :
    FailsIn s.stop all allowance (comparison s tokens) := by
  cases tokens with
  | nil => trivial
  | cons t tokens =>
      have hRest := (dropBlank_suffix tokens).trans ((List.suffix_cons _ _).trans hTokens)
      rw [comparison]
      split
      · split
        · exact (value_failsIn hRest).andThen fun _ _ _ => trivial
        · exact ⟨.before (hTokens.subset List.mem_cons_self) rfl, Nat.zero_le _⟩
      · trivial

theorem attributeTest_failsIn (hTokens : tokens <:+ all) :
    FailsIn s.stop all allowance (attributeTest s tokens) := by
  have hInner := (dropBlank_suffix tokens).trans hTokens
  have hFirst : FailsIn s.stop all allowance (qualifiedName s .attributeName (dropBlank tokens)) :=
    qualifiedName_failsIn hInner rfl
  refine hFirst.andThen fun name rest hName => ?_
  have hRest := ((qualifiedName_bounded s _).rest_of_ok hName).trans hInner
  split
  · have hMore := (dropBlank_suffix rest).trans hRest
    refine (comparison_failsIn hMore).andThen fun _ last hComparison => ?_
    have hLast := ((comparison_bounded s).rest_of_ok hComparison).trans hMore
    exact (expect_failsIn hLast _ _).map
  · exact fail_failsIn (α := AttributeTest) hInner rfl

theorem positionsText_failsIn (hTokens : tokens <:+ all) :
    FailsIn s.stop all allowance (positionsText s tokens) := by
  induction tokens with
  | nil => exact fail_failsIn hTokens rfl
  | cons t tokens ih =>
      have hRest := ih ((List.suffix_cons _ _).trans hTokens)
      rw [positionsText]
      cases t.kind with
      | parenthesesEnd => trivial
      | number | identifier | combinator | whitespace => exact hRest.map
      | _ => exact fail_failsIn hTokens rfl

/-- Positions are reported behind their opening parenthesis. -/
theorem positions_failsIn {start : Token} (hStart : start ∈ all) (hTokens : tokens <:+ all) :
    FailsIn s.stop all allowance (positions s start.stop tokens) := by
  refine (positionsText_failsIn hTokens).andThen fun text rest _ => ?_
  split
  · trivial
  · exact ⟨.behind hStart rfl, Nat.zero_le _⟩

theorem textArgument_failsIn (hTokens : tokens <:+ all) :
    FailsIn s.stop all allowance (textArgument s tokens) := by
  have hInner := (dropBlank_suffix tokens).trans hTokens
  refine (value_failsIn hInner).andThen fun text rest hValue => ?_
  have hRest := ((value_bounded s).rest_of_ok hValue).trans hInner
  exact (expect_failsIn ((dropBlank_suffix rest).trans hRest) _ _).map

/-- Groups report the token that names them, or one of the tokens they are given. -/
def GroupsFail (s : Setting) (all : List Token) (allowance : Nat) (groups : GroupParser) : Prop :=
  ∀ (t : Token) (tokens : List Token), t ∈ all → tokens <:+ all →
    FailsIn s.stop all allowance (groups.read t.offset tokens)

/-- A pseudo-class that is not known is reported at the token that names it. -/
theorem plain_failsIn {t : Token} (ht : t ∈ all) (hKind : t.kind = .pseudoClass)
    (tokens : List Token) : FailsIn s.stop all allowance (plain t tokens) := by
  unfold plain
  split
  · trivial
  · split
    · exact ⟨.behind ht rfl, Nat.zero_le _⟩
    · exact ⟨.unsupported ht (Or.inl hKind), Nat.zero_le _⟩

variable {groups : GroupParser}

/-- Behind the name of a pseudo-class the fault may lie in front, at the name itself. -/
theorem pseudo_failsIn (hGroups : GroupsFail s all allowance groups) {t : Token} (ht : t ∈ all)
    (hKind : t.kind = .pseudoClass) (hTokens : tokens <:+ all) :
    FailsIn s.stop all allowance (pseudo s groups t tokens) := by
  cases tokens with
  | nil => exact plain_failsIn ht hKind []
  | cons start tokens =>
      have hRest := (List.suffix_cons _ _).trans hTokens
      rw [pseudo]
      split
      · unfold functional
        rcases FunctionalClass.ofName? (pseudoName t) with - | counting | - | - | -
        case none => exact ⟨.unsupported ht (Or.inl hKind), Nat.zero_le _⟩
        case some.nth => exact (positions_failsIn (hTokens.subset List.mem_cons_self) hRest).map
        case some.not | some.has => exact (hGroups t _ ht hTokens).map
        case some.contains => exact (textArgument_failsIn hRest).map
      · exact plain_failsIn ht hKind (start :: tokens)

theorem part_failsIn (hGroups : GroupsFail s all allowance groups) (hTokens : tokens <:+ all) :
    FailsIn s.stop all allowance (part s groups tokens) := by
  cases tokens with
  | nil => trivial
  | cons t tokens =>
      have ht := hTokens.subset List.mem_cons_self
      have hRest := (List.suffix_cons _ _).trans hTokens
      simp only [part]
      cases hKind : t.kind with
      | attributeStart => exact (attributeTest_failsIn hRest).map
      | pseudoClass => exact (pseudo_failsIn hGroups ht hKind hRest).map
      | pseudoElement => exact ⟨.unsupported ht (Or.inr hKind), Nat.zero_le _⟩
      | identifier | universal | namespaceSeparator => exact fail_failsIn hTokens rfl
      | _ => trivial

theorem parts_failsIn (hGroups : GroupsFail s all allowance groups) (hTokens : tokens <:+ all) :
    FailsIn s.stop all allowance (parts s groups tokens) := by
  fun_induction parts s groups tokens with
  | case1 tokens simple rest hPart ih =>
      exact (ih (((part_bounded s groups).rest_of_ok hPart).trans hTokens)).map
  | case2 => trivial
  | case3 tokens fault count rest hPart =>
      have hFault := part_failsIn hGroups hTokens
      rwa [hPart] at hFault

theorem compound_failsIn (hGroups : GroupsFail s all allowance groups) (hTokens : tokens <:+ all) :
    FailsIn s.stop all allowance (compound s groups tokens) := by
  have hFirst : FailsIn s.stop all allowance (qualifiedName s .elementName tokens) :=
    qualifiedName_failsIn hTokens rfl
  refine hFirst.andThen fun name rest hName => ?_
  have hRest := ((qualifiedName_bounded s _).rest_of_ok hName).trans hTokens
  refine (parts_failsIn hGroups hRest).andThen fun simples last hParts => ?_
  have hLast := ((parts_bounded s groups).rest_of_ok hParts).trans hRest
  split
  · exact fail_failsIn hLast rfl
  · trivial
  · trivial

theorem link_failsIn (hTokens : tokens <:+ all) : FailsIn s.stop all allowance (link tokens) := by
  have hInner := (dropBlank_suffix tokens).trans hTokens
  unfold link
  split
  · trivial
  · rename_i t rest hRest
    rw [hRest] at hInner
    split
    · split
      · trivial
      · exact ⟨.before (hInner.subset List.mem_cons_self) rfl, Nat.zero_le _⟩
    · split <;> trivial

theorem chain_failsIn (hGroups : GroupsFail s all allowance groups) {left : Complex}
    (hTokens : tokens <:+ all) : FailsIn s.stop all allowance (chain s groups left tokens) := by
  fun_induction chain s groups left tokens with
  | case1 => trivial
  | case2 left tokens fault count rest hLink =>
      have hFault : FailsIn s.stop all allowance (link tokens) := link_failsIn hTokens
      rwa [hLink] at hFault
  | case3 left tokens combinator rest hLink right last hCompound ih =>
      have hRest := (link_bounded.rest_of_ok hLink).trans hTokens
      exact ih (((compound_bounded s groups).rest_of_ok hCompound).trans hRest)
  | case4 left tokens combinator rest hLink fault count last hCompound =>
      have hRest := (link_bounded.rest_of_ok hLink).trans hTokens
      have hFault := compound_failsIn hGroups hRest
      rwa [hCompound] at hFault

theorem alternative_failsIn (hGroups : GroupsFail s all allowance groups)
    (hTokens : tokens <:+ all) :
    FailsIn s.stop all allowance (alternative s groups tokens) := by
  have hInner := (dropBlank_suffix tokens).trans hTokens
  refine FailsIn.andThen ?_ fun _ _ _ => trivial
  refine (compound_failsIn hGroups hInner).andThen fun first rest hFirst => ?_
  exact chain_failsIn hGroups (((compound_bounded s groups).rest_of_ok hFirst).trans hInner)

/-- However many selectors have been read, a list fails at one of its tokens or where they end. -/
theorem list_failsIn (hGroups : GroupsFail s all allowance groups) {close : Token.Kind}
    (hTokens : tokens <:+ all) : FailsIn s.stop all allowance (list s groups close tokens) := by
  have hEnd : (listEnd close).isUnsupported = false := by cases close <;> rfl
  fun_induction list s groups close tokens with
  | case1 tokens fault count rest hRead =>
      have hFault := alternative_failsIn hGroups hTokens
      rwa [hRead] at hFault
  | case2 => trivial
  | case3 => exact fail_failsIn (List.nil_suffix) hEnd
  | case4 tokens selector comma rest hRead hComma ih =>
      have hRest := ((alternative_bounded s groups).rest_of_ok hRead).trans hTokens
      exact (ih ((List.suffix_cons _ _).trans hRest)).map
  | case5 => trivial
  | case6 tokens selector t rest hRead =>
      exact fail_failsIn (((alternative_bounded s groups).rest_of_ok hRead).trans hTokens) hEnd

end

/-- A group that is one too many is reported at its name, and is not counted. -/
theorem groups_failsIn (s : Setting) (all : List Token) (allowance : Nat) :
    GroupsFail s all allowance (groups s allowance) := by
  induction allowance with
  | zero =>
      intro t tokens ht _
      exact ⟨.before ht rfl, Nat.zero_le _⟩
  | succ allowance ih =>
      intro t tokens _ hTokens
      have hInside := (List.drop_suffix 1 tokens).trans hTokens
      exact (list_failsIn ih hInside).inGroup.andThen fun _ _ _ => trivial

end Parser

/-- A list is at fault at one of the tokens that are left, or where they end. -/
theorem TokenReader.outcome_failsIn (r : TokenReader) :
    r.outcome.FailsIn r.setting.stop r.tokens (r.setting.limit - r.depth) :=
  Parser.list_failsIn (Parser.groups_failsIn _ _ _) (List.suffix_refl _)

/-- A source that is scanned and not read is at fault at one of its tokens, or at its end. -/
theorem Selector.standsIn_of_parse {source : Text} {limit : Nat} {e : SelectorError}
    {front : List Token} {offset : Nat}
    (hTokens : tokenize source = .ok (front ++ [⟨.eof, [], offset⟩]))
    (h : parse source limit = .error e) :
    ∃ fault, e = .grammatical fault ∧ fault.StandsIn offset (Mode.uncommented front) := by
  rw [parse, hTokens] at h
  simp only [TokenReader.next_eq_result, TokenReader.start_append_eof] at h
  have hFails := TokenReader.outcome_failsIn ⟨Mode.uncommented front, ⟨offset, limit⟩, 0⟩
  generalize TokenReader.outcome _ = found at h hFails
  cases found with
  | ok => cases h
  | error fault groups rest =>
      cases h
      exact ⟨fault, rfl, hFails.1⟩

end SelectorXPath
