import SelectorXPath.Proofs.Selector.Enclosing
import SelectorXPath.Proofs.Selector.Parallel
import SelectorXPath.Proofs.Token.Stack

/-! What a failed attempt leaves open. It has read some tokens and counts the groups that it was in
when it failed, and these are the groups whose parentheses are still open behind the tokens that it
has read. Nothing else that it reads opens or closes a group: strings are known to hold no
parenthesis, and where positions or a text are asked for, a parenthesis is left to be read. -/

namespace SelectorXPath

open SelectorXPath.Grammar SelectorXPath.Enclosure

/-- Tokens of a source. What is behind the beginning of a string is inside of it, or ends it. -/
structure Grammar.Continued (ts : List Token) : Prop where
  scanned : Scanned ts
  strings : ts.IsChain fun a b => a.kind.admitsQuoted = true → b.kind.isFlat = true

theorem Grammar.Continued.part {ts us : List Token} (h : Continued us) (hPart : ts <:+: us) :
    Continued ts :=
  ⟨h.scanned.part hPart, List.IsChain.infix h.strings hPart⟩

theorem Grammar.Continued.dropBlank {ts : List Token} (h : Continued ts) :
    Continued (Parser.dropBlank ts) :=
  h.part (Parser.dropBlank_suffix ts).isInfix

/-- A token that the inside of a string may follow opens a string, or leaves one open. -/
theorem Mode.string_of_admitsQuoted {mode : Mode} {kind : Token.Kind} (h : kind ∈ mode.kinds)
    (hAdmits : kind.admitsQuoted = true) :
    mode.isClosedBy kind = false ∧ ((∃ mark, mode.opened? kind = some (.string mark)) ∨
      mode.opened? kind = none ∧ ∃ mark, mode = .string mark) := by
  cases mode with
  | string mark =>
      cases kind with
      | stringChars | escapedChar => exact ⟨by cases mark <;> rfl, Or.inr ⟨rfl, mark, rfl⟩⟩
      | stringStart => simp [kinds] at h
      | _ => cases hAdmits
  | comment =>
      cases kind with
      | stringStart | stringChars | escapedChar => simp [kinds] at h
      | _ => cases hAdmits
  | _ =>
      cases kind with
      | stringStart mark => exact ⟨rfl, Or.inl ⟨mark, rfl⟩⟩
      | stringChars | escapedChar => simp [kinds, selectorKinds] at h
      | _ => cases hAdmits

namespace Scan

variable {s s' next last : Scan} {t u : Token} {ts : List Token}

/-- What follows the start of a string is its inside or its end, and neither is a parenthesis. -/
theorem isFlat_of_admitsQuoted (hStep : s.step = some (.ok (t, next)))
    (hNext : next.step = some (.ok (u, last))) (hAdmits : t.kind.admitsQuoted = true) :
    u.kind.isFlat = true ∧ u.kind.isComment = false := by
  obtain ⟨c, text, length, -, hKind, -, hShift, -⟩ := step_eq_some_ok hStep
  obtain ⟨d, text', length', -, hKind', -⟩ := step_eq_some_ok hNext
  obtain ⟨mark, hMode⟩ : ∃ mark, next.top.mode = .string mark := by
    obtain ⟨hClosed, hOpen⟩ :=
      Mode.string_of_admitsQuoted (Mode.form_of_recognize? hKind).mem_kinds hAdmits
    obtain ⟨hEnd, -⟩ | ⟨-, ⟨mode, hOpened, hTop, -⟩ | ⟨hOpened, hTop, -⟩⟩ :=
      shift_eq_ok_iff.mp hShift
    · rw [hClosed] at hEnd
      cases hEnd
    · rw [hOpened] at hOpen
      rw [hTop]
      rcases hOpen with ⟨mark, hMode⟩ | ⟨hNone, -⟩
      · exact ⟨mark, Option.some.inj hMode⟩
      · cases hNone
    · rw [hOpened] at hOpen
      rw [hTop]
      rcases hOpen with ⟨mark, hMode⟩ | ⟨-, hMode⟩
      · cases hMode
      · exact hMode
  have hFound := (Mode.form_of_recognize? hKind').mem_kinds
  rw [hMode] at hFound
  simp only [Mode.kinds, List.mem_cons, List.not_mem_nil, or_false] at hFound
  rcases hFound with h | h | h <;>
    · rw [h]
      exact ⟨rfl, rfl⟩

/-- What a scan finds behind the beginning of a string is no comment, so it is still there when the
comments are left out. -/
theorem Passes.isChain_strings (h : Passes s ts s') :
    (Mode.uncommented ts).IsChain fun a b => a.kind.admitsQuoted = true → b.kind.isFlat = true := by
  induction h with
  | done => exact List.isChain_nil
  | @step s next _ t ts hStep hRest ih =>
      cases hComment : t.kind.isComment with
      | true =>
          rw [Mode.uncommented, List.filter_cons_of_neg (by simp [hComment])]
          exact ih
      | false =>
          rw [Mode.uncommented, List.filter_cons_of_pos (by simp [hComment])]
          refine List.isChain_cons.mpr ⟨fun u hu hAdmits => ?_, ih⟩
          cases hRest with
          | done => cases hu
          | @step _ _ _ v ts hNext _ =>
              obtain ⟨hFlat, hVisible⟩ := isFlat_of_admitsQuoted hStep hNext hAdmits
              rw [List.filter_cons_of_pos (by simp [hVisible])] at hu
              obtain rfl : v = u := by simpa using hu
              exact hFlat

end Scan

/-- Scanned tokens have the property. -/
theorem continued_of_tokenize {source : SelectorXPath.Text} {tokens : List Token}
    (h : tokenize source = .ok tokens) : Continued (TokenReader.visible tokens) := by
  refine ⟨(TokenReader.visible_of_tokenize h).2, ?_⟩
  obtain ⟨front, s, hPasses, -, -, rfl⟩ := Scan.passes_of_run h
  rw [TokenReader.visible_append_eof]
  exact hPasses.isChain_strings

/-- As many groups stand around the place behind the tokens as around the one in front. -/
def Level (ts : List Token) : Prop :=
  ∀ around : Enclosure, (around.behind ts).groups = around.groups

/-- Tokens that are settled leave as many groups open as they find. -/
theorem Settled.level {allowance : Nat} {ts : List Token} (h : Settled allowance ts) : Level ts :=
  fun _ => h.groups

theorem level_of_flat {ts : List Token} (h : Flat ts) : Level ts :=
  (settled_of_flat h : Settled 0 ts).level

theorem level_of_kind {t : Token} (h : t.kind.isFlat = true) : Level [t] :=
  level_of_flat (flat_singleton h)

/-- The name of a pseudo-class opens nothing by itself. -/
theorem level_of_name {t : Token} (hKind : t.kind = .pseudoClass) : Level [t] := by
  intro around
  rw [behind_cons, step_of_ne (by simp [hKind]) (by simp [hKind])]
  rfl

/-- Nor does it with a parenthesis behind, unless it is the name of a group. -/
theorem level_of_argument {t start : Token} (hKind : t.kind = .pseudoClass)
    (hStart : start.kind = .parenthesesStart) (hOther : t.namesGroup = false) :
    Level [t, start] := by
  intro around
  rw [behind_cons, behind_cons]
  refine (groups_behind_name hKind hStart).trans ?_
  rw [hOther, if_neg Bool.false_ne_true, Nat.add_zero]

/-- If the attempt fails, it has read some of the tokens, and it counts the groups that are opened
and not closed by them. -/
def Outcome.LeavesOpen {α : Type} (tokens : List Token) : Outcome α → Prop
  | .ok _ _ => True
  | .error _ count rest => ∃ ts, tokens = ts ++ rest ∧
      ∀ around : Enclosure, (around.behind ts).groups = around.groups + count

namespace Outcome

section

variable {α β : Type} {ts tokens : List Token} {o : Outcome α}

theorem LeavesOpen.here {fault : SyntaxError} :
    LeavesOpen tokens (.error fault 0 tokens : Outcome α) :=
  ⟨[], rfl, fun _ => rfl⟩

theorem LeavesOpen.map {f : α → β} (h : LeavesOpen tokens o) : LeavesOpen tokens (o.map f) := by
  cases o with
  | ok => trivial
  | error => exact h

/-- Level tokens in front change nothing about what is left open. -/
theorem LeavesOpen.behind (hLevel : Level ts) (h : LeavesOpen tokens o) :
    LeavesOpen (ts ++ tokens) o := by
  cases o with
  | ok => trivial
  | error fault count rest =>
      obtain ⟨us, rfl, hCount⟩ := h
      refine ⟨ts ++ us, by rw [List.append_assoc], fun around => ?_⟩
      rw [behind_append, hCount, hLevel]

/-- The first of two steps reads level tokens, so that a failure of the second counts from where
both started. -/
theorem LeavesOpen.andThen {next : α → List Token → Outcome β} (h : LeavesOpen tokens o)
    (hNext : ∀ value rest, o = .ok value rest → ∃ ts, tokens = ts ++ rest ∧
      Level ts ∧ LeavesOpen rest (next value rest)) :
    LeavesOpen tokens (o.andThen next) := by
  cases o with
  | error => exact h
  | ok value rest =>
      obtain ⟨ts, rfl, hLevel, hRest⟩ := hNext value rest rfl
      exact hRest.behind hLevel

/-- White space is level. -/
theorem LeavesOpen.behind_blank (h : LeavesOpen (Parser.dropBlank tokens) o) :
    LeavesOpen tokens o := by
  obtain ⟨before, hTokens, hBlank, -⟩ := Parser.dropBlank_sound tokens
  rw [hTokens]
  exact h.behind (level_of_flat (flat_of_blank hBlank))

/-- A success cannot fail afterwards. -/
theorem LeavesOpen.andThen_ok {f : α → List Token → β} {left : List Token → List Token}
    (h : LeavesOpen tokens o) :
    LeavesOpen tokens (o.andThen fun value rest => .ok (f value rest) (left rest)) := by
  cases o with
  | ok => trivial
  | error => exact h

/-- Behind the name of a group and its parenthesis. -/
theorem LeavesOpen.enclosed {t start : Token} (hKind : t.kind = .pseudoClass)
    (hGroup : t.namesGroup = true) (hStart : start.kind = .parenthesesStart)
    (h : LeavesOpen tokens o) : LeavesOpen (t :: start :: tokens) o.inGroup := by
  cases o with
  | ok => trivial
  | error fault count rest =>
      obtain ⟨ts, rfl, hCount⟩ := h
      refine ⟨t :: start :: ts, rfl, fun around => ?_⟩
      rw [behind_cons, behind_cons, hCount, groups_behind_name hKind hStart, if_pos hGroup]
      omega

end

end Outcome

namespace Parser

open SelectorXPath.Outcome

section

variable {s : Setting} {t start : Token} {tokens : List Token}

theorem expect_leavesOpen (kind : Token.Kind) (delimiter : Char) :
    LeavesOpen tokens (expect s kind delimiter tokens) := by
  cases tokens with
  | nil => exact .here
  | cons t tokens =>
      rw [expect]
      split
      · trivial
      · exact .here

theorem localName_leavesOpen (expected : Expected) :
    LeavesOpen tokens (localName s expected tokens) := by
  cases tokens with
  | nil => exact .here
  | cons t tokens =>
      rw [localName]
      split
      · trivial
      · exact .here

theorem isFlat_of_name? {name : Option SelectorXPath.Text} (h : name? t = some name) :
    t.kind.isFlat = true := by
  unfold name? at h
  split at h
  · rename_i hKind
    rw [hKind]
    rfl
  · rename_i hKind
    rw [hKind]
    rfl
  · cases h

theorem qualifiedName_leavesOpen (expected : Expected) :
    LeavesOpen tokens (qualifiedName s expected tokens) := by
  cases tokens with
  | nil => trivial
  | cons t tokens =>
      rw [qualifiedName]
      split <;> split
      · rename_i hName hBar
        cases tokens with
        | nil => cases hBar
        | cons bar tokens =>
            have hKind : bar.kind = .namespaceSeparator := hBar
            have hFlat : Flat [t, bar] :=
              .cons (isFlat_of_name? hName) (flat_singleton (by rw [hKind]; rfl))
            exact .behind (level_of_flat hFlat) (localName_leavesOpen expected).map
      · trivial
      · rename_i hBar
        have hFlat : Flat [t] := flat_singleton (by rw [hBar]; rfl)
        exact .behind (level_of_flat hFlat) (localName_leavesOpen expected).map
      · trivial

/-- Where a string goes on, it is not left by more than its next token. -/
theorem stringText_leavesOpen (mark : QuoteMark) (h : Continued (start :: tokens))
    (hAdmits : start.kind.admitsQuoted = true) :
    LeavesOpen tokens (stringText s mark tokens) := by
  induction tokens generalizing start with
  | nil => exact .here
  | cons t tokens ih =>
      have hLevel := level_of_kind ((List.isChain_cons_cons.mp h.strings).1 hAdmits)
      have hRest : Continued (t :: tokens) := h.part (List.suffix_cons _ _).isInfix
      rw [stringText]
      split
      · rename_i hKind
        exact .behind hLevel (ih hRest (by rw [hKind]; rfl)).map
      · rename_i hKind
        exact .behind hLevel (ih hRest (by rw [hKind]; rfl)).map
      · split
        · trivial
        · exact .behind hLevel .here

/-- A string that breaks off has been read up to there, and none of it opens a group. -/
theorem value_leavesOpen (h : Continued tokens) : LeavesOpen tokens (value s tokens) := by
  cases tokens with
  | nil => exact .here
  | cons t tokens =>
      rw [value]
      split
      · trivial
      · trivial
      · rename_i mark hKind
        exact .behind (level_of_kind (by rw [hKind]; rfl))
          (stringText_leavesOpen mark h (by rw [hKind]; rfl))
      · exact .here

theorem comparison_leavesOpen (h : Continued tokens) : LeavesOpen tokens (comparison s tokens) := by
  cases tokens with
  | nil => trivial
  | cons t tokens =>
      have hRest : Continued tokens := h.part (List.suffix_cons _ _).isInfix
      rw [comparison]
      split
      · rename_i hKind
        refine .behind (level_of_kind (by rw [hKind]; rfl)) ?_
        split
        · exact .behind_blank (value_leavesOpen hRest.dropBlank).andThen_ok
        · exact .here
      · trivial

theorem attributeTest_leavesOpen (h : Continued tokens) :
    LeavesOpen tokens (attributeTest s tokens) := by
  refine .behind_blank ((qualifiedName_leavesOpen _).andThen fun name rest hName => ?_)
  obtain ⟨ts, hTokens, hFlat⟩ := flat_of_qualifiedName hName
  have hRest : Continued rest := h.dropBlank.part ⟨ts, [], by simp [hTokens]⟩
  refine ⟨ts, hTokens, level_of_flat hFlat, ?_⟩
  split
  · refine .behind_blank ((comparison_leavesOpen hRest.dropBlank).andThen
      fun found last hComparison => ?_)
    obtain ⟨us, hBlank, hWritten⟩ := comparison_sound hComparison
    exact ⟨us, hBlank, level_of_flat (flat_of_writesComparison hWritten),
      (expect_leavesOpen _ _).map⟩
  · exact .here

theorem positionsText_leavesOpen : LeavesOpen tokens (positionsText s tokens) := by
  induction tokens with
  | nil => exact .here
  | cons t tokens ih =>
      rw [positionsText]
      cases hKind : t.kind with
      | parenthesesEnd => trivial
      | number | identifier | combinator | whitespace =>
          exact .behind (level_of_kind (by rw [hKind]; rfl)) ih.map
      | _ => exact .here

theorem flat_of_positionsText {text : Text} {rest : List Token}
    (h : positionsText s tokens = .ok text rest) : ∃ ts, tokens = ts ++ rest ∧ Flat ts := by
  induction tokens generalizing text with
  | nil => cases h
  | cons t tokens ih =>
      rw [positionsText] at h
      cases hKind : t.kind with
      | parenthesesEnd =>
          rw [hKind] at h
          cases h
          exact ⟨[], rfl, .nil⟩
      | number | identifier | combinator | whitespace =>
          rw [hKind] at h
          obtain ⟨more, hMore, -⟩ := Outcome.map_eq_ok_iff.mp h
          obtain ⟨ts, rfl, hFlat⟩ := ih hMore
          exact ⟨t :: ts, rfl, .cons (by rw [hKind]; rfl) hFlat⟩
      | _ =>
          rw [hKind] at h
          cases h

/-- Tokens of positions are level, be they positions or not. -/
theorem positions_leavesOpen (offset : Nat) : LeavesOpen tokens (positions s offset tokens) := by
  refine positionsText_leavesOpen.andThen fun text rest hText => ?_
  obtain ⟨ts, hTokens, hFlat⟩ := flat_of_positionsText hText
  refine ⟨ts, hTokens, level_of_flat hFlat, ?_⟩
  split
  · trivial
  · exact .here

theorem textArgument_leavesOpen (h : Continued tokens) :
    LeavesOpen tokens (textArgument s tokens) := by
  refine .behind_blank ((value_leavesOpen h.dropBlank).andThen fun text rest hValue => ?_)
  obtain ⟨ts, hTokens, hWritten⟩ := value_sound hValue
  exact ⟨ts, hTokens, level_of_flat (flat_of_writesValue hWritten),
    .behind_blank (expect_leavesOpen _ _).map⟩

theorem plain_leavesOpen : LeavesOpen tokens (plain t tokens) := by
  unfold plain
  split
  · trivial
  · split <;> exact .here

end

/-- A group that cannot be read is counted if its parenthesis has been. -/
def GroupsLeaveOpen (groups : GroupParser) : Prop :=
  ∀ (t start : Token) (rest : List Token), t.kind = .pseudoClass → t.namesGroup = true →
    start.kind = .parenthesesStart → Continued (t :: start :: rest) →
    Outcome.LeavesOpen (t :: start :: rest) (groups.read t.offset (start :: rest))

section

variable {s : Setting} {groups : GroupParser} {group : List Token → SelectorList → Prop}
  {allowance : Nat} {t start : Token} {tokens rest : List Token}

/-- A group that fails is one that its parenthesis has opened. -/
theorem functional_leavesOpen (hGroups : GroupsLeaveOpen groups) (hKind : t.kind = .pseudoClass)
    (hStart : start.kind = .parenthesesStart) (h : Continued (t :: start :: rest)) :
    LeavesOpen (t :: start :: rest) (functional s groups t start rest) := by
  have hOther {functional : FunctionalClass}
      (hName : FunctionalClass.ofName? (pseudoName t) = some functional)
      (hNot : functional ≠ .not) (hHas : functional ≠ .has) : t.namesGroup = false := by
    have hGroup := namesGroup_of_functional hKind (name_of_functionalClass_ofName? hName)
    exact Bool.eq_false_iff.mpr (hGroup.not.mpr (not_or_intro hNot hHas))
  unfold functional
  rcases hName : FunctionalClass.ofName? (pseudoName t) with - | counting | - | - | -
  case none => exact .behind (level_of_name hKind) .here
  case some.nth =>
    have hLevel := level_of_argument hKind hStart (hOther hName nofun nofun)
    exact .behind hLevel (positions_leavesOpen _).map
  case some.not | some.has =>
    have hGroup : t.namesGroup = true :=
      (namesGroup_iff hKind).mpr (by simp [name_of_functionalClass_ofName? hName])
    exact (hGroups t start rest hKind hGroup hStart h).map
  case some.contains =>
    have hLevel := level_of_argument hKind hStart (hOther hName nofun nofun)
    have hRest : Continued rest := h.part ⟨[t, start], [], by simp⟩
    exact .behind hLevel (textArgument_leavesOpen hRest).map

theorem pseudo_leavesOpen (hGroups : GroupsLeaveOpen groups) (hKind : t.kind = .pseudoClass)
    (h : Continued (t :: tokens)) : LeavesOpen (t :: tokens) (pseudo s groups t tokens) := by
  cases tokens with
  | nil => exact .behind (level_of_name hKind) plain_leavesOpen
  | cons start rest =>
      rw [pseudo]
      split
      · rename_i hStart
        exact functional_leavesOpen hGroups hKind hStart h
      · exact .behind (level_of_name hKind) plain_leavesOpen

/-- A failure in a part leaves open what the part has opened. -/
theorem part_leavesOpen (hGroups : GroupsLeaveOpen groups) (h : Continued tokens) :
    LeavesOpen tokens (part s groups tokens) := by
  cases tokens with
  | nil => trivial
  | cons t tokens =>
      simp only [part]
      cases hKind : t.kind with
      | attributeStart =>
          have hRest : Continued tokens := h.part (List.suffix_cons _ _).isInfix
          exact .behind (level_of_kind (by rw [hKind]; rfl)) (attributeTest_leavesOpen hRest).map
      | pseudoClass => exact (pseudo_leavesOpen hGroups hKind h).map
      | pseudoElement | identifier | universal | namespaceSeparator => exact .here
      | _ => trivial

/-- The groups are read as the grammar has them, what they hold is settled, and the ones that cannot
be read are counted. -/
structure Counts (allowance : Nat) (group : List Token → SelectorList → Prop)
    (groups : GroupParser) : Prop where
  reads : GroupReads groups group
  settled : Compositional group (Settled allowance)
  leaveOpen : GroupsLeaveOpen groups

/-- The parts in front have been read, and they are settled. -/
theorem parts_leavesOpen {tokens : List Token} (hGroups : Counts allowance group groups)
    (h : Continued tokens) : LeavesOpen tokens (parts s groups tokens) := by
  rw [parts_eq]
  refine (part_leavesOpen hGroups.leaveOpen h).andThen fun found rest hPart => ?_
  obtain ⟨ts, rfl, hSettled⟩ := composed_of_part hGroups.settled hGroups.reads h.scanned hPart
  refine ⟨ts, rfl, hSettled.level, ?_⟩
  cases found with
  | none => trivial
  | some simple =>
      have hLess := length_lt_of_part hPart
      exact (parts_leavesOpen hGroups (h.part (List.suffix_append ts rest).isInfix)).map
termination_by tokens.length

theorem compound_leavesOpen (hGroups : Counts allowance group groups) (h : Continued tokens) :
    LeavesOpen tokens (compound s groups tokens) := by
  refine (qualifiedName_leavesOpen _).andThen fun name rest hName => ?_
  obtain ⟨ts, rfl, hFlat⟩ := flat_of_qualifiedName hName
  have hRest := h.part (List.suffix_append ts rest).isInfix
  refine ⟨ts, rfl, level_of_flat hFlat, ?_⟩
  refine (parts_leavesOpen hGroups hRest).andThen fun simples more hParts => ?_
  obtain ⟨us, rfl, hSettled⟩ := composed_of_parts hGroups.settled hGroups.reads hRest.scanned hParts
  refine ⟨us, rfl, hSettled.level, ?_⟩
  split
  · exact .here
  · trivial
  · trivial

theorem link_leavesOpen : LeavesOpen tokens (link tokens) := by
  obtain ⟨before, hTokens, hBlank, -⟩ := dropBlank_sound tokens
  unfold link
  split
  · trivial
  · rename_i t rest hRest
    split
    · rename_i hKind
      split
      · trivial
      · rw [hRest] at hTokens
        rw [hTokens]
        exact .behind (level_of_flat (flat_of_blank hBlank))
          (.behind (level_of_kind (by rw [hKind]; rfl)) .here)
    · split <;> trivial

theorem chain_leavesOpen {tokens : List Token} {left : Complex}
    (hGroups : Counts allowance group groups) (h : Continued tokens) :
    LeavesOpen tokens (chain s groups left tokens) := by
  rw [chain_eq]
  refine link_leavesOpen.andThen fun found rest hLink => ?_
  obtain ⟨ms, rfl, hFlat⟩ := flat_of_link hLink
  refine ⟨ms, rfl, level_of_flat hFlat, ?_⟩
  cases found with
  | none => trivial
  | some combinator =>
      have hLess := length_lt_of_link hLink
      have hRest := h.part (List.suffix_append ms rest).isInfix
      refine (compound_leavesOpen hGroups hRest).andThen fun right more hRight => ?_
      have hLess' := (compound_bounded s groups).length_le_of_ok hRight
      obtain ⟨rs, rfl, hSettled⟩ :=
        composed_of_compound hGroups.settled hGroups.reads hRest.scanned hRight
      exact ⟨rs, rfl, hSettled.level,
        chain_leavesOpen hGroups (hRest.part (List.suffix_append rs more).isInfix)⟩
termination_by tokens.length

theorem alternative_leavesOpen (hGroups : Counts allowance group groups) (h : Continued tokens) :
    LeavesOpen tokens (alternative s groups tokens) := by
  refine .behind_blank (.andThen_ok ?_)
  refine (compound_leavesOpen hGroups h.dropBlank).andThen fun first rest hFirst => ?_
  obtain ⟨fs, hTokens, hSettled⟩ :=
    composed_of_compound hGroups.settled hGroups.reads h.dropBlank.scanned hFirst
  have hRest : Continued rest := h.dropBlank.part ⟨fs, [], by simp [hTokens]⟩
  exact ⟨fs, hTokens, hSettled.level, chain_leavesOpen hGroups hRest⟩

/-- The run lemma for lists: the groups that a failure counts are those that the tokens read have
opened and not closed. -/
theorem list_leavesOpen {tokens : List Token} {close : Token.Kind}
    (hGroups : Counts allowance group groups) (h : Continued tokens) :
    LeavesOpen tokens (list s groups close tokens) := by
  rw [list_eq]
  refine (alternative_leavesOpen hGroups h).andThen fun selector rest hRead => ?_
  have hLess := (alternative_bounded s groups).length_le_of_ok hRead
  obtain ⟨ts, rfl, hSettled⟩ :=
    composed_of_alternative hGroups.settled hGroups.reads h.scanned hRead
  refine ⟨ts, rfl, hSettled.level, ?_⟩
  split
  · rename_i hComma
    cases rest with
    | nil => cases hComma
    | cons comma rest =>
        have hLevel := (settled_of_separator hComma : Settled allowance [comma]).level
        have hRest : Continued rest := h.part ⟨ts ++ [comma], [], by simp⟩
        exact .behind hLevel (list_leavesOpen hGroups hRest).map
  · split
    · trivial
    · exact .here
termination_by tokens.length

end

/-- Groups of any depth. -/
theorem groups_counts (s : Setting) (allowance : Nat) :
    Counts allowance (writesGroup allowance) (groups s allowance) := by
  induction allowance with
  | zero =>
      refine ⟨groups_reads s 0, settled_of_writesGroup 0, fun t start rest hKind _ _ _ => ?_⟩
      exact .behind (level_of_name hKind) .here
  | succ allowance ih =>
      refine ⟨groups_reads s _, settled_of_writesGroup _,
        fun t start rest hKind hGroup hStart h => ?_⟩
      have hInside : Continued rest := h.part ⟨[t, start], [], by simp⟩
      exact ((list_leavesOpen ih hInside).enclosed hKind hGroup hStart).andThen_ok

end Parser

/-- A reader that fails counts the groups that are open behind what it has read. -/
theorem TokenReader.outcome_leavesOpen {r : TokenReader} (h : Continued r.tokens) :
    r.outcome.LeavesOpen r.tokens :=
  Parser.list_leavesOpen (Parser.groups_counts _ _) h

end SelectorXPath
