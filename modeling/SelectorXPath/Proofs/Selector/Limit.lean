import SelectorXPath.Proofs.Selector.Enclosing
import SelectorXPath.Proofs.Selector.Parallel

/-! A limit on the nesting of groups only limits. The same tokens are read under two limits, side by
side: as long as no group stands too deep for the lower one, both attempts do the same, and the
first group that does is where the lower one ends. What an attempt has read leaves it inside of as
many groups as before, however many groups stand side by side in it, so the count of the groups that
are still allowed agrees with the parentheses that are open. -/

namespace SelectorXPath

open SelectorXPath.Grammar SelectorXPath.Enclosure

/-- Inside of as many groups as `allowance` leaves of `limit`, the first outcome is the second, or
it is an error at the first group that stands too deep. -/
def Outcome.Limited {α : Type} (limit allowance : Nat) (tokens : List Token) (o o' : Outcome α) :
    Prop :=
  ∀ around : Enclosure, around.groups + allowance = limit →
    o = o' ∨ ∃ t count rest, firstDeep? limit around tokens = some t ∧
      o = .error ⟨t.offset, .nesting limit⟩ count rest

namespace Outcome

section

variable {α β : Type} {limit allowance : Nat} {ts tokens : List Token} {o o' : Outcome α}

/-- Where both limits lead to the same there is nothing to say. -/
theorem Limited.same (h : o = o') : Limited limit allowance tokens o o' :=
  fun _ _ => Or.inl h

theorem Limited.map {f : α → β} (h : Limited limit allowance tokens o o') :
    Limited limit allowance tokens (o.map f) (o'.map f) := by
  intro around hAround
  rcases h around hAround with rfl | ⟨t, count, rest, hDeep, rfl⟩
  · exact Or.inl rfl
  · exact Or.inr ⟨t, count, rest, hDeep, rfl⟩

theorem Limited.inGroup (h : Limited limit allowance tokens o o') :
    Limited limit allowance tokens o.inGroup o'.inGroup := by
  intro around hAround
  rcases h around hAround with rfl | ⟨t, count, rest, hDeep, rfl⟩
  · exact Or.inl rfl
  · exact Or.inr ⟨t, count + 1, rest, hDeep, rfl⟩

/-- What is done with a success does not look for groups. -/
theorem Limited.andThen_same {next : α → List Token → Outcome β}
    (h : Limited limit allowance tokens o o') :
    Limited limit allowance tokens (o.andThen next) (o'.andThen next) := by
  intro around hAround
  rcases h around hAround with rfl | ⟨t, count, rest, hDeep, rfl⟩
  · exact Or.inl rfl
  · exact Or.inr ⟨t, count, rest, hDeep, rfl⟩

/-- Behind the name of a group and its parenthesis, one group less is left. -/
theorem Limited.enclosed {t start : Token} (hKind : t.kind = .pseudoClass)
    (hGroup : t.namesGroup = true) (hStart : start.kind = .parenthesesStart)
    (h : Limited limit allowance tokens o o') :
    Limited limit (allowance + 1) (t :: start :: tokens) o o' := by
  intro around hAround
  have hShallow : ¬(t.namesGroup ∧ limit ≤ around.groups) := fun hDeep =>
    absurd hDeep.2 (by omega)
  rw [firstDeep?_cons_of_not hShallow, firstDeep?_cons_of_kind (by simp [hStart])]
  apply h
  rw [groups_behind_name hKind hStart, if_pos hGroup]
  omega

/-- Settled tokens in front change nothing. -/
theorem Limited.behind (hSettled : Settled allowance ts)
    (h : Limited limit allowance tokens o o') : Limited limit allowance (ts ++ tokens) o o' := by
  intro around hAround
  rw [firstDeep?_append_of_none (hSettled.shallow around limit hAround.le)]
  exact h _ (by rw [hSettled.groups, hAround])

/-- An attempt goes on with the tokens that a success leaves, and settled tokens lie behind it. -/
theorem Limited.andThen {next next' : α → List Token → Outcome β}
    (h : Limited limit allowance tokens o o')
    (hNext : ∀ value rest, o = .ok value rest → ∃ ts, tokens = ts ++ rest ∧
      Settled allowance ts ∧ Limited limit allowance rest (next value rest) (next' value rest)) :
    Limited limit allowance tokens (o.andThen next) (o'.andThen next') := by
  intro around hAround
  rcases h around hAround with rfl | ⟨t, count, rest, hDeep, rfl⟩
  · cases o with
    | error fault count rest => exact Or.inl rfl
    | ok value rest =>
        obtain ⟨ts, rfl, hSettled, hRest⟩ := hNext value rest rfl
        exact hRest.behind hSettled around hAround
  · exact Or.inr ⟨t, count, rest, hDeep, rfl⟩

end

end Outcome

namespace Parser

/-- The tokens of a group, with the token that names it, are read alike up to the first group that
stands too deep. -/
def GroupsLimited (limit allowance : Nat) (groups groups' : GroupParser) : Prop :=
  ∀ (t start : Token) (rest : List Token), t.kind = .pseudoClass → t.namesGroup = true →
    start.kind = .parenthesesStart → Scanned (t :: start :: rest) →
    Outcome.Limited limit allowance (t :: start :: rest) (groups.read t.offset (start :: rest))
      (groups'.read t.offset (start :: rest))

section

variable {s s' : Setting}

/-- A parser that reads no groups knows of the limit only the end of the tokens. -/
theorem fail_of_stop {α : Type} (hStop : s.stop = s'.stop) (expected : Expected)
    (tokens : List Token) : fail (α := α) s expected tokens = fail s' expected tokens := by
  cases tokens with
  | nil => rw [fail, fail, nextOffset, nextOffset, hStop]
  | cons t tokens => rfl

theorem localName_of_stop (hStop : s.stop = s'.stop) (expected : Expected)
    (tokens : List Token) : localName s expected tokens = localName s' expected tokens := by
  cases tokens with
  | nil => exact fail_of_stop hStop expected []
  | cons t tokens => rfl

theorem qualifiedName_of_stop (hStop : s.stop = s'.stop) (expected : Expected)
    (tokens : List Token) : qualifiedName s expected tokens = qualifiedName s' expected tokens := by
  cases tokens with
  | nil => rfl
  | cons t tokens => simp only [qualifiedName, localName_of_stop hStop]

theorem stringText_of_stop (hStop : s.stop = s'.stop) (mark : QuoteMark) (tokens : List Token) :
    stringText s mark tokens = stringText s' mark tokens := by
  induction tokens with
  | nil => exact fail_of_stop hStop (.delimiter mark.char) []
  | cons t tokens ih => simp only [stringText, ih]

theorem value_of_stop (hStop : s.stop = s'.stop) (tokens : List Token) :
    value s tokens = value s' tokens := by
  cases tokens with
  | nil => exact fail_of_stop hStop .value []
  | cons t tokens => simp only [value, stringText_of_stop hStop, fail_of_stop hStop]

theorem expect_of_stop (hStop : s.stop = s'.stop) (kind : Token.Kind) (delimiter : Char)
    (tokens : List Token) : expect s kind delimiter tokens = expect s' kind delimiter tokens := by
  cases tokens with
  | nil => exact fail_of_stop hStop (.delimiter delimiter) []
  | cons t tokens => rfl

theorem attributeTest_of_stop (hStop : s.stop = s'.stop) (tokens : List Token) :
    attributeTest s tokens = attributeTest s' tokens := by
  have hComparison : comparison s = comparison s' := by
    funext tokens
    cases tokens with
    | nil => rfl
    | cons t tokens => simp only [comparison, value_of_stop hStop]
  have hNext : ∀ tokens, nextOffset s tokens = nextOffset s' tokens := by
    intro tokens
    cases tokens with
    | nil => exact hStop
    | cons t tokens => rfl
  simp only [attributeTest, qualifiedName_of_stop hStop, hComparison, expect_of_stop hStop, hNext]

theorem positions_of_stop (hStop : s.stop = s'.stop) (start : Nat) (tokens : List Token) :
    positions s start tokens = positions s' start tokens := by
  have hText : ∀ tokens, positionsText s tokens = positionsText s' tokens := by
    intro tokens
    induction tokens with
    | nil => exact fail_of_stop hStop .positions []
    | cons t tokens ih => simp only [positionsText, ih, fail_of_stop hStop]
  rw [positions, positions, hText]

theorem textArgument_of_stop (hStop : s.stop = s'.stop) (tokens : List Token) :
    textArgument s tokens = textArgument s' tokens := by
  simp only [textArgument, value_of_stop hStop, expect_of_stop hStop]

end

section

variable {s s' : Setting} {groups groups' : GroupParser}
  {group : List Token → SelectorList → Prop} {limit allowance : Nat} {t start : Token}
  {tokens rest : List Token}

/-- The name in front of the parenthesis is where a group is found to be too deep. -/
theorem functional_limited (hStop : s.stop = s'.stop)
    (hGroups : GroupsLimited limit allowance groups groups') (hKind : t.kind = .pseudoClass)
    (hStart : start.kind = .parenthesesStart) (hScanned : Scanned (t :: start :: rest)) :
    Outcome.Limited limit allowance (t :: start :: rest) (functional s groups t start rest)
      (functional s' groups' t start rest) := by
  unfold functional
  rcases hName : FunctionalClass.ofName? (pseudoName t) with - | counting | - | - | -
  case none => exact .same rfl
  case some.nth =>
    rw [positions_of_stop hStop]
    exact .same rfl
  case some.not | some.has =>
    have hGroup : t.namesGroup = true :=
      (namesGroup_iff hKind).mpr (by simp [name_of_functionalClass_ofName? hName])
    exact (hGroups t start rest hKind hGroup hStart hScanned).map
  case some.contains =>
    rw [textArgument_of_stop hStop]
    exact .same rfl

/-- Behind the name of a pseudo-class only what holds selectors depends on the limit. -/
theorem pseudo_limited (hStop : s.stop = s'.stop)
    (hGroups : GroupsLimited limit allowance groups groups') (hKind : t.kind = .pseudoClass)
    (hScanned : Scanned (t :: tokens)) :
    Outcome.Limited limit allowance (t :: tokens) (pseudo s groups t tokens)
      (pseudo s' groups' t tokens) := by
  cases tokens with
  | nil => exact .same rfl
  | cons start rest =>
      simp only [pseudo]
      split
      · rename_i hStart
        exact functional_limited hStop hGroups hKind hStart hScanned
      · exact .same rfl

/-- Of the parts of a compound only pseudo-classes depend on it. -/
theorem part_limited (hStop : s.stop = s'.stop)
    (hGroups : GroupsLimited limit allowance groups groups') (hScanned : Scanned tokens) :
    Outcome.Limited limit allowance tokens (part s groups tokens) (part s' groups' tokens) := by
  cases tokens with
  | nil => exact .same rfl
  | cons t tokens =>
      simp only [part]
      cases hKind : t.kind with
      | attributeStart =>
          rw [attributeTest_of_stop hStop]
          exact .same rfl
      | pseudoClass => exact (pseudo_limited hStop hGroups hKind hScanned).map
      | _ => exact .same rfl

/-- The settings end at the same place, the groups of the first one are read as the grammar has
them, and what they hold is settled. -/
structure SideBySide (limit allowance : Nat) (group : List Token → SelectorList → Prop)
    (s s' : Setting) (groups groups' : GroupParser) : Prop where
  stop : s.stop = s'.stop
  reads : GroupReads groups group
  settled : Compositional group (Settled allowance)
  limited : GroupsLimited limit allowance groups groups'

/-- The parts in front are settled, so a group that is too deep lies behind them or in the next
one. -/
theorem parts_limited {tokens : List Token}
    (h : SideBySide limit allowance group s s' groups groups') (hScanned : Scanned tokens) :
    Outcome.Limited limit allowance tokens (parts s groups tokens) (parts s' groups' tokens) := by
  rw [parts_eq, parts_eq]
  refine (part_limited h.stop h.limited hScanned).andThen fun found rest hPart => ?_
  obtain ⟨ts, rfl, hSettled⟩ := composed_of_part h.settled h.reads hScanned hPart
  refine ⟨ts, rfl, hSettled, ?_⟩
  cases found with
  | none => exact .same rfl
  | some simple =>
      have hLess := length_lt_of_part hPart
      exact (parts_limited h (hScanned.part (List.suffix_append ts rest).isInfix)).map
termination_by tokens.length

theorem compound_limited (h : SideBySide limit allowance group s s' groups groups')
    (hScanned : Scanned tokens) :
    Outcome.Limited limit allowance tokens (compound s groups tokens)
      (compound s' groups' tokens) := by
  have hNext : nextOffset s tokens = nextOffset s' tokens := by
    cases tokens with
    | nil => exact h.stop
    | cons t tokens => rfl
  unfold compound
  rw [qualifiedName_of_stop h.stop]
  refine (Outcome.Limited.same rfl).andThen fun name rest hName => ?_
  obtain ⟨ts, rfl, hFlat⟩ := flat_of_qualifiedName hName
  have hRest := hScanned.part (List.suffix_append ts rest).isInfix
  refine ⟨ts, rfl, settled_of_flat hFlat, (parts_limited h hRest).andThen fun _ _ hParts => ?_⟩
  obtain ⟨us, rfl, hSettled⟩ := composed_of_parts h.settled h.reads hRest hParts
  refine ⟨us, rfl, hSettled, ?_⟩
  rw [hNext, fail_of_stop h.stop]
  exact .same rfl

theorem chain_limited {tokens : List Token} {left : Complex}
    (h : SideBySide limit allowance group s s' groups groups') (hScanned : Scanned tokens) :
    Outcome.Limited limit allowance tokens (chain s groups left tokens)
      (chain s' groups' left tokens) := by
  rw [chain_eq, chain_eq]
  refine (Outcome.Limited.same rfl).andThen fun found rest hLink => ?_
  obtain ⟨ms, rfl, hFlat⟩ := flat_of_link hLink
  refine ⟨ms, rfl, settled_of_flat hFlat, ?_⟩
  cases found with
  | none => exact .same rfl
  | some combinator =>
      have hLess := length_lt_of_link hLink
      have hRest := hScanned.part (List.suffix_append ms rest).isInfix
      refine (compound_limited h hRest).andThen fun right more hRight => ?_
      have hLess' := (compound_bounded s groups).length_le_of_ok hRight
      obtain ⟨rs, rfl, hSettled⟩ := composed_of_compound h.settled h.reads hRest hRight
      exact ⟨rs, rfl, hSettled, chain_limited h (hRest.part (List.suffix_append rs more).isInfix)⟩
termination_by tokens.length

theorem alternative_limited (h : SideBySide limit allowance group s s' groups groups')
    (hScanned : Scanned tokens) :
    Outcome.Limited limit allowance tokens (alternative s groups tokens)
      (alternative s' groups' tokens) := by
  obtain ⟨before, hTokens, hBlank, -⟩ := dropBlank_sound tokens
  unfold alternative complex
  generalize dropBlank tokens = inner at hTokens ⊢
  subst hTokens
  have hInner := hScanned.part (List.suffix_append before inner).isInfix
  refine .behind (settled_of_flat (flat_of_blank hBlank)) (.andThen_same ?_)
  refine (compound_limited h hInner).andThen fun first rest hFirst => ?_
  obtain ⟨fs, rfl, hSettled⟩ := composed_of_compound h.settled h.reads hInner hFirst
  exact ⟨fs, rfl, hSettled, chain_limited h (hInner.part (List.suffix_append fs rest).isInfix)⟩

/-- The run lemma for lists: under a smaller limit a list is the same, or it fails at the first
group that is too deep. -/
theorem list_limited {tokens : List Token} {close : Token.Kind}
    (h : SideBySide limit allowance group s s' groups groups') (hScanned : Scanned tokens) :
    Outcome.Limited limit allowance tokens (list s groups close tokens)
      (list s' groups' close tokens) := by
  rw [list_eq, list_eq]
  refine (alternative_limited h hScanned).andThen fun selector rest hRead => ?_
  have hLess := (alternative_bounded s groups).length_le_of_ok hRead
  obtain ⟨ts, rfl, hSettled⟩ := composed_of_alternative h.settled h.reads hScanned hRead
  refine ⟨ts, rfl, hSettled, ?_⟩
  split
  · rename_i hComma
    cases rest with
    | nil => cases hComma
    | cons comma rest =>
        have hRest : Scanned rest := hScanned.part ⟨ts ++ [comma], [], by simp⟩
        exact .behind (settled_of_separator hComma) (list_limited h hRest).map
  · rw [fail_of_stop h.stop]
    exact .same rfl
termination_by tokens.length

end

/-- Groups that may nest as deep as the limit leaves, and groups that may nest deeper. -/
theorem groups_limited {s s' : Setting} (hStop : s.stop = s'.stop) {allowance bound : Nat}
    (hBound : allowance ≤ bound) :
    GroupsLimited s.limit allowance (groups s allowance) (groups s' bound) := by
  induction allowance generalizing bound with
  | zero =>
      intro t start rest _ hGroup _ _ around hAround
      refine Or.inr ⟨t, 0, start :: rest, ?_, rfl⟩
      rw [firstDeep?, if_pos ⟨hGroup, hAround.ge⟩]
  | succ allowance ih =>
      obtain ⟨bound, rfl⟩ : ∃ b, bound = b + 1 := ⟨bound - 1, by omega⟩
      intro t start rest hKind hGroup hStart hScanned
      have hSides : SideBySide s.limit allowance (writesGroup allowance) s s'
          (groups s allowance) (groups s' bound) :=
        ⟨hStop, groups_reads s allowance, settled_of_writesGroup allowance,
          ih (Nat.le_of_succ_le_succ hBound)⟩
      have hInside : Outcome.Limited s.limit allowance rest
          (list s (groups s allowance) .parenthesesEnd rest)
          (list s' (groups s' bound) .parenthesesEnd rest) :=
        list_limited hSides (hScanned.part ⟨[t, start], [], by simp⟩)
      exact hInside.inGroup.andThen_same.enclosed hKind hGroup hStart

end Parser

namespace Selector

/-- The error is that too many groups lie inside each other, and it stands at the first name of a
group that stands inside of `limit` groups. -/
def TooDeep (source : Text) (limit : Nat) (e : SelectorError) : Prop :=
  ∃ tokens t, tokenize source = .ok tokens ∧
    firstDeep? limit outside (TokenReader.visible tokens) = some t ∧
    e = .grammatical ⟨t.offset, .nesting limit⟩

/-- The same source under two limits: both attempts come to the same, or the lower limit is what the
first one fails at. -/
theorem parse_eq_or_tooDeep (source : Text) {limit bound : Nat} (hBound : limit ≤ bound) :
    parse source limit = parse source bound ∨
      ∃ e, parse source limit = .error e ∧ TooDeep source limit e := by
  cases hTokens : tokenize source with
  | error e => exact Or.inl (by rw [parse, parse, hTokens])
  | ok tokens =>
      obtain ⟨front, offset, rfl, -⟩ :=
        Scan.scanned_of_run (Scan.start_stringsOnTop source) hTokens
      have hScanned := (TokenReader.visible_of_tokenize hTokens).2
      rw [TokenReader.visible_append_eof] at hScanned
      have hStop : (Setting.mk offset limit).stop = (Setting.mk offset bound).stop := rfl
      have hSides : Parser.SideBySide limit limit (writesGroup limit) ⟨offset, limit⟩
          ⟨offset, bound⟩ (Parser.groups ⟨offset, limit⟩ limit)
          (Parser.groups ⟨offset, bound⟩ bound) :=
        ⟨hStop, Parser.groups_reads _ limit, settled_of_writesGroup limit,
          Parser.groups_limited hStop hBound⟩
      have hRead : Outcome.Limited limit limit (Mode.uncommented front)
          (Parser.list _ (Parser.groups _ limit) .eof _)
          (Parser.list _ (Parser.groups _ bound) .eof _) := Parser.list_limited hSides hScanned
      rw [parse_eq_result hTokens, parse_eq_result hTokens]
      rcases hRead outside (Nat.zero_add limit) with hSame | ⟨t, count, rest, hDeep, hError⟩
      · exact Or.inl (by rw [hSame])
      · refine Or.inr ⟨_, by rw [hError]; rfl, _, t, hTokens, ?_, rfl⟩
        rwa [TokenReader.visible_append_eof]

/-- A limit only limits. What is read without it, or with a higher one, is read with it as well if
its groups do not nest deeper; else the attempt fails at the first group that does. An attempt that
fails without the limit fails with it, in the same way or at the first group that nests too deep.
So what is read at all does not depend on the limit, and more is read under higher limits. -/
theorem parse_limit_only_limits (source : Text) {limit bound : Nat} (hBound : limit ≤ bound) :
    (∀ list, parse source bound = .ok list →
      (listNesting list ≤ limit → parse source limit = .ok list) ∧
      (limit < listNesting list →
        ∃ e, parse source limit = .error e ∧ TooDeep source limit e)) ∧
    (∀ e, parse source bound = .error e →
      parse source limit = .error e ∨
        ∃ e', parse source limit = .error e' ∧ TooDeep source limit e') ∧
    ∀ list, parse source limit = .ok list → parse source bound = .ok list := by
  have hBoth := parse_eq_or_tooDeep source hBound
  refine ⟨fun list hRead => ⟨fun hNesting => ?_, fun hNesting => ?_⟩, fun e hError => ?_,
    fun list hRead => ?_⟩
  · obtain ⟨tokens, hTokens, hWritten, -⟩ := parse_eq_ok_iff.mp hRead
    exact parse_eq_ok_iff.mpr ⟨tokens, hTokens, hWritten, hNesting⟩
  · rcases hBoth with hSame | hDeep
    · rw [hRead] at hSame
      obtain ⟨_, _, _, hLess⟩ := parse_eq_ok_iff.mp hSame
      exact absurd hNesting (Nat.not_lt.mpr hLess)
    · exact hDeep
  · rw [hError] at hBoth
    exact hBoth
  · rcases hBoth with hSame | ⟨e, hError, -⟩
    · rw [← hSame, hRead]
    · rw [hRead] at hError
      cases hError

/-- Two groups side by side, the second of which holds two more: under the limit of two groups, the
innermost one is at fault. -/
theorem parse_limit_only_limits_of_siblings :
    ∃ list, parse ":has(a):not(:has(:not(b)))".toList 18446744073709551615 = .ok list ∧
      2 < listNesting list ∧ ∃ e, parse ":has(a):not(:has(:not(b)))".toList 2 = .error e ∧
        TooDeep ":has(a):not(:has(:not(b)))".toList 2 e := by
  have hReads : (parse ":has(a):not(:has(:not(b)))".toList 3).isOk = true := by decide +kernel
  have hFails : (parse ":has(a):not(:has(:not(b)))".toList 2).isOk = false := by decide +kernel
  cases hRead : parse ":has(a):not(:has(:not(b)))".toList 3 with
  | error e =>
      rw [hRead] at hReads
      cases hReads
  | ok list =>
      have hThree : 3 ≤ 18446744073709551615 := by decide
      have hTwo : 2 ≤ 18446744073709551615 := by decide
      have hAll := (parse_limit_only_limits _ hThree).2.2 list hRead
      obtain ⟨hShallow, hDeep⟩ := (parse_limit_only_limits _ hTwo).1 list hAll
      have hNesting : 2 < listNesting list := by
        by_contra hLess
        rw [hShallow (Nat.not_lt.mp hLess)] at hFails
        cases hFails
      exact ⟨list, hAll, hNesting, hDeep hNesting⟩

end Selector

end SelectorXPath
