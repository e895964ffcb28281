import Mathlib.Data.List.Forall2
import SelectorXPath.Proofs.Selector.Acceptance
import SelectorXPath.Proofs.Selector.Agreement
import SelectorXPath.Proofs.Token.Passage

/-! Parsers look at the kinds of tokens and at their texts. The offsets of tokens go into what is
read, and into errors, and nothing else depends on them. So the same tokens at other offsets are
read as the same, but for these offsets; and if two offsets are related whenever they stand in front
of the same token, they are related wherever they turn up. -/

namespace SelectorXPath

variable (R : Nat → Nat → Prop)

/-- The same token, perhaps at another offset. -/
structure Token.Parallel (t t' : Token) : Prop where
  kind_eq : t'.kind = t.kind
  text_eq : t'.text = t.text
  offset : R t.offset t'.offset

abbrev TokensParallel : List Token → List Token → Prop :=
  List.Forall₂ (Token.Parallel R)

/-- What a parser knows of two such rows of tokens. -/
structure Setting.Parallel (s s' : Setting) : Prop where
  stop : R s.stop s'.stop
  limit_eq : s'.limit = s.limit

mutual

/-- The same simple selector, with compounds at related offsets inside. -/
def Simple.Parallel : Simple → Simple → Prop
  | .not list, .not list' => ListParallel list list'
  | .has list, .has list' => ListParallel list list'
  | simple, simple' => simple' = simple

def PartsParallel : List Simple → List Simple → Prop
  | [], [] => True
  | part :: parts, part' :: parts' => part.Parallel part' ∧ PartsParallel parts parts'
  | _, _ => False

def Compound.Parallel : Compound → Compound → Prop
  | ⟨offset, parts⟩, ⟨offset', parts'⟩ => R offset offset' ∧ PartsParallel parts parts'

def Complex.Parallel : Complex → Complex → Prop
  | .single compound, .single compound' => compound.Parallel compound'
  | .joined left combinator right, .joined left' combinator' right' =>
    left.Parallel left' ∧ combinator' = combinator ∧ right.Parallel right'
  | _, _ => False

def ListParallel : List Complex → List Complex → Prop
  | [], [] => True
  | selector :: list, selector' :: list' => selector.Parallel selector' ∧ ListParallel list list'
  | _, _ => False

end

/-- Both attempts succeed with related values, or both fail with the same expectation. -/
inductive Outcome.Parallel {α : Type} (V : α → α → Prop) : Outcome α → Outcome α → Prop where
  | ok {value value' : α} {rest rest' : List Token} (hValue : V value value')
      (hRest : TokensParallel R rest rest') :
      Outcome.Parallel V (.ok value rest) (.ok value' rest')
  | error {offset offset' : Nat} (expected : Expected) (groups : Nat) {rest rest' : List Token}
      (hOffset : R offset offset') (hRest : TokensParallel R rest rest') :
      Outcome.Parallel V (.error ⟨offset, expected⟩ groups rest)
        (.error ⟨offset', expected⟩ groups rest')

variable {R}

/-- A simple selector without group has no offsets in it. -/
theorem Simple.parallel_of_nesting {simple : Simple} (h : simple.nesting = 0) :
    simple.Parallel R simple := by
  cases simple with
  | not list => simp [Simple.nesting] at h
  | has list => simp [Simple.nesting] at h
  | _ => simp [Simple.Parallel]

mutual

/-- Parallel selectors are the same apart from offsets. -/
theorem Simple.unplaced_of_parallel : ∀ {simple simple' : Simple},
    simple.Parallel R simple' → simple'.unplaced = simple.unplaced
  | .not list, simple', h => by
      cases simple' with
      | not list' =>
          rw [Simple.Parallel] at h
          rw [Simple.unplaced, Simple.unplaced, listUnplaced_of_parallel h]
      | _ => simp [Simple.Parallel] at h
  | .has list, simple', h => by
      cases simple' with
      | has list' =>
          rw [Simple.Parallel] at h
          rw [Simple.unplaced, Simple.unplaced, listUnplaced_of_parallel h]
      | _ => simp [Simple.Parallel] at h
  | .type .., simple', h | .universal .., simple', h | .class .., simple', h | .id .., simple', h
  | .attribute .., simple', h | .pseudo .., simple', h | .nth .., simple', h
  | .contains .., simple', h => by
      simp only [Simple.Parallel] at h
      rw [h]

theorem partsUnplaced_of_parallel : ∀ {parts parts' : List Simple},
    PartsParallel R parts parts' → partsUnplaced parts' = partsUnplaced parts
  | [], parts', h => by
      cases parts' with
      | nil => rfl
      | cons => simp [PartsParallel] at h
  | part :: parts, parts', h => by
      cases parts' with
      | nil => simp [PartsParallel] at h
      | cons part' parts' =>
          obtain ⟨hPart, hParts⟩ := by rwa [PartsParallel] at h
          rw [partsUnplaced, partsUnplaced, Simple.unplaced_of_parallel hPart,
            partsUnplaced_of_parallel hParts]

theorem Compound.unplaced_of_parallel : ∀ {compound compound' : Compound},
    compound.Parallel R compound' → compound'.unplaced = compound.unplaced
  | ⟨_, parts⟩, ⟨_, parts'⟩, h => by
      obtain ⟨-, hParts⟩ := by rwa [Compound.Parallel] at h
      rw [Compound.unplaced, Compound.unplaced, partsUnplaced_of_parallel hParts]

theorem Complex.unplaced_of_parallel : ∀ {selector selector' : Complex},
    selector.Parallel R selector' → selector'.unplaced = selector.unplaced
  | .single compound, selector', h => by
      cases selector' with
      | single compound' =>
          rw [Complex.Parallel] at h
          rw [Complex.unplaced, Complex.unplaced, Compound.unplaced_of_parallel h]
      | joined => simp [Complex.Parallel] at h
  | .joined left combinator right, selector', h => by
      cases selector' with
      | single => simp [Complex.Parallel] at h
      | joined left' combinator' right' =>
          obtain ⟨hLeft, rfl, hRight⟩ := by rwa [Complex.Parallel] at h
          rw [Complex.unplaced, Complex.unplaced, Complex.unplaced_of_parallel hLeft,
            Compound.unplaced_of_parallel hRight]

/-- Related lists differ in nothing but offsets. -/
theorem listUnplaced_of_parallel : ∀ {list list' : List Complex},
    ListParallel R list list' → listUnplaced list' = listUnplaced list
  | [], list', h => by
      cases list' with
      | nil => rfl
      | cons => simp [ListParallel] at h
  | selector :: list, list', h => by
      cases list' with
      | nil => simp [ListParallel] at h
      | cons selector' list' =>
          obtain ⟨hSelector, hList⟩ := by rwa [ListParallel] at h
          rw [listUnplaced, listUnplaced, Complex.unplaced_of_parallel hSelector,
            listUnplaced_of_parallel hList]

end

namespace Outcome

variable {α β : Type} {V : α → α → Prop} {W : β → β → Prop} {o o' : Outcome α}

/-- Related values stay related under functions that relate them. -/
theorem Parallel.map {f f' : α → β} (h : Outcome.Parallel R V o o')
    (hMap : ∀ value value', V value value' → W (f value) (f' value')) :
    Outcome.Parallel R W (o.map f) (o'.map f') := by
  cases h with
  | ok hValue hRest => exact .ok (hMap _ _ hValue) hRest
  | error expected groups hOffset hRest => exact .error expected groups hOffset hRest

/-- Two attempts stay parallel from one step to the next. -/
theorem Parallel.andThen {next next' : α → List Token → Outcome β}
    (h : Outcome.Parallel R V o o')
    (hNext : ∀ value value' rest rest', V value value' →
      TokensParallel R rest rest' →
      Outcome.Parallel R W (next value rest) (next' value' rest')) :
    Outcome.Parallel R W (o.andThen next) (o'.andThen next') := by
  cases h with
  | ok hValue hRest => exact hNext _ _ _ _ hValue hRest
  | error expected groups hOffset hRest => exact .error expected groups hOffset hRest

theorem Parallel.inGroup (h : Outcome.Parallel R V o o') :
    Outcome.Parallel R V o.inGroup o'.inGroup := by
  cases h with
  | ok hValue hRest => exact .ok hValue hRest
  | error expected groups hOffset hRest => exact .error expected (groups + 1) hOffset hRest

end Outcome

namespace Parser

variable {s s' : Setting} {ts ts' : List Token} {t t' : Token} {expected : Expected}
  {α : Type} {V : α → α → Prop}

/-- Which token comes next does not depend on offsets. -/
theorem nextKind_parallel (h : TokensParallel R ts ts') :
    nextKind ts' = nextKind ts := by
  cases h with
  | nil => rfl
  | cons hFirst _ => exact hFirst.kind_eq

/-- Where it stands is related, also at the end of the tokens. -/
theorem nextOffset_parallel (hs : s.Parallel R s') (h : TokensParallel R ts ts') :
    R (nextOffset s ts) (nextOffset s' ts') := by
  cases h with
  | nil => exact hs.stop
  | cons hFirst _ => exact hFirst.offset

/-- Errors at related places are related, and they expect the same. -/
theorem fail_parallel (hs : s.Parallel R s') (h : TokensParallel R ts ts') :
    Outcome.Parallel R V (fail s expected ts) (fail s' expected ts') :=
  .error expected 0 (nextOffset_parallel hs h) h

theorem dropBlank_parallel (h : TokensParallel R ts ts') :
    TokensParallel R (dropBlank ts) (dropBlank ts') := by
  induction h with
  | nil => exact .nil
  | @cons t t' ts ts' hFirst hRest ih =>
      simp only [dropBlank, List.dropWhile_cons, hFirst.kind_eq] at ih ⊢
      split
      · exact ih
      · exact .cons hFirst hRest

theorem drop_parallel (n : Nat) (h : TokensParallel R ts ts') :
    TokensParallel R (ts.drop n) (ts'.drop n) :=
  List.forall₂_drop n h

theorem expect_parallel {kind : Token.Kind} {delimiter : Char} (hs : s.Parallel R s')
    (h : TokensParallel R ts ts') :
    Outcome.Parallel R Eq (expect s kind delimiter ts) (expect s' kind delimiter ts') := by
  cases h with
  | nil => exact fail_parallel hs .nil
  | cons hFirst hRest =>
      rw [expect, expect, hFirst.kind_eq]
      split
      · exact .ok rfl hRest
      · exact fail_parallel hs (.cons hFirst hRest)

theorem name?_parallel (h : t.Parallel R t') : name? t' = name? t := by
  rw [name?, name?, h.kind_eq, h.text_eq]

theorem localName_parallel (hs : s.Parallel R s') (h : TokensParallel R ts ts') :
    Outcome.Parallel R Eq (localName s expected ts) (localName s' expected ts') := by
  cases h with
  | nil => exact fail_parallel hs .nil
  | cons hFirst hRest =>
      rw [localName, localName, name?_parallel hFirst]
      split
      · exact .ok rfl hRest
      · exact fail_parallel hs (.cons hFirst hRest)

theorem qualifiedName_parallel (hs : s.Parallel R s')
    (h : TokensParallel R ts ts') :
    Outcome.Parallel R Eq (qualifiedName s expected ts) (qualifiedName s' expected ts') := by
  cases h with
  | nil => exact .ok rfl .nil
  | cons hFirst hRest =>
      rw [qualifiedName, qualifiedName, name?_parallel hFirst, nextKind_parallel hRest,
        hFirst.kind_eq]
      split
      · split
        · exact (localName_parallel hs (drop_parallel 1 hRest)).map fun _ _ hName => by rw [hName]
        · exact .ok rfl hRest
      · split
        · exact (localName_parallel hs hRest).map fun _ _ hName => by rw [hName]
        · exact .ok rfl (.cons hFirst hRest)

theorem stringText_parallel {mark : QuoteMark} (hs : s.Parallel R s')
    (h : TokensParallel R ts ts') :
    Outcome.Parallel R Eq (stringText s mark ts) (stringText s' mark ts') := by
  induction h with
  | nil => exact fail_parallel hs .nil
  | cons hFirst hRest ih =>
      rw [stringText, stringText, hFirst.kind_eq, hFirst.text_eq]
      split
      · exact ih.map fun _ _ hText => by rw [hText]
      · exact ih.map fun _ _ hText => by rw [hText]
      · split
        · exact .ok rfl hRest
        · exact .error _ 0 hFirst.offset hRest

theorem value_parallel (hs : s.Parallel R s') (h : TokensParallel R ts ts') :
    Outcome.Parallel R Eq (value s ts) (value s' ts') := by
  cases h with
  | nil => exact fail_parallel hs .nil
  | cons hFirst hRest =>
      rw [value, value, hFirst.kind_eq, hFirst.text_eq]
      split
      · exact .ok rfl hRest
      · exact .ok rfl hRest
      · exact stringText_parallel hs hRest
      · exact fail_parallel hs (.cons hFirst hRest)

theorem comparison_parallel (hs : s.Parallel R s')
    (h : TokensParallel R ts ts') :
    Outcome.Parallel R Eq (comparison s ts) (comparison s' ts') := by
  cases h with
  | nil => exact .ok rfl .nil
  | cons hFirst hRest =>
      rw [comparison, comparison, hFirst.kind_eq, hFirst.text_eq]
      split
      · split
        · refine (value_parallel hs (dropBlank_parallel hRest)).andThen ?_
          rintro value _ rest rest' rfl hBehind
          exact .ok rfl (dropBlank_parallel hBehind)
        · exact .error _ 0 hFirst.offset hRest
      · exact .ok rfl (.cons hFirst hRest)

theorem attributeTest_parallel (hs : s.Parallel R s')
    (h : TokensParallel R ts ts') :
    Outcome.Parallel R Eq (attributeTest s ts) (attributeTest s' ts') := by
  refine (qualifiedName_parallel hs (dropBlank_parallel h)).andThen ?_
  rintro name _ rest rest' rfl hRest
  split
  · refine (comparison_parallel hs (dropBlank_parallel hRest)).andThen ?_
    rintro comparison _ behind behind' rfl hBehind
    exact (expect_parallel hs hBehind).map fun _ _ _ => rfl
  · exact .error _ 0 (nextOffset_parallel hs (dropBlank_parallel h)) hRest

theorem positionsText_parallel (hs : s.Parallel R s')
    (h : TokensParallel R ts ts') :
    Outcome.Parallel R Eq (positionsText s ts) (positionsText s' ts') := by
  induction h with
  | nil => exact fail_parallel hs .nil
  | cons hFirst hRest ih =>
      rw [positionsText, positionsText, hFirst.kind_eq, hFirst.text_eq]
      split
      · exact .ok rfl (.cons hFirst hRest)
      · exact ih.map fun _ _ hText => by rw [hText]
      · exact ih.map fun _ _ hText => by rw [hText]
      · exact ih.map fun _ _ hText => by rw [hText]
      · exact ih.map fun _ _ hText => by rw [hText]
      · exact fail_parallel hs (.cons hFirst hRest)

theorem positions_parallel {start start' : Nat} (hs : s.Parallel R s') (hStart : R start start')
    (h : TokensParallel R ts ts') :
    Outcome.Parallel R Eq (positions s start ts) (positions s' start' ts') := by
  refine (positionsText_parallel hs h).andThen ?_
  rintro text _ rest rest' rfl hRest
  split
  · exact .ok rfl (drop_parallel 1 hRest)
  · exact .error _ 0 hStart hRest

theorem textArgument_parallel (hs : s.Parallel R s')
    (h : TokensParallel R ts ts') :
    Outcome.Parallel R Eq (textArgument s ts) (textArgument s' ts') := by
  refine (value_parallel hs (dropBlank_parallel h)).andThen ?_
  rintro text _ rest rest' rfl hRest
  exact (expect_parallel hs (dropBlank_parallel hRest)).map fun _ _ _ => rfl

/-- Groups at related offsets are read as related lists. -/
def GroupsParallel (R : Nat → Nat → Prop) (groups groups' : GroupParser) : Prop :=
  ∀ offset offset' ts ts', R offset offset' → TokensParallel R ts ts' →
    Outcome.Parallel R (ListParallel R) (groups.read offset ts) (groups'.read offset' ts')

section

variable {groups groups' : GroupParser}
  (hDistance : ∀ offset offset' n, R offset offset' → R (offset + n) (offset' + n))

include hDistance in
theorem stop_parallel (h : t.Parallel R t') : R t.stop t'.stop := by
  rw [Token.stop, Token.stop, Token.byteLength, Token.byteLength, h.text_eq]
  exact hDistance _ _ _ h.offset

/-- The name of a pseudo-class is in its text, which is the same. -/
theorem pseudoName_parallel (h : t.Parallel R t') : pseudoName t' = pseudoName t := by
  rw [pseudoName, pseudoName, h.text_eq]

include hDistance in
theorem functional_parallel {start start' : Token} (hs : s.Parallel R s')
    (hGroups : GroupsParallel R groups groups') (hName : t.Parallel R t')
    (hStart : start.Parallel R start') (h : TokensParallel R ts ts') :
    Outcome.Parallel R (Simple.Parallel R) (functional s groups t start ts)
      (functional s' groups' t' start' ts') := by
  rw [functional, functional, pseudoName_parallel hName]
  split
  · exact (positions_parallel hs (stop_parallel hDistance hStart) h).map
      fun _ _ hPositions => by rw [hPositions]; exact Simple.parallel_of_nesting rfl
  · exact (hGroups _ _ _ _ hName.offset (.cons hStart h)).map
      fun _ _ hList => by rwa [Simple.Parallel]
  · exact (hGroups _ _ _ _ hName.offset (.cons hStart h)).map
      fun _ _ hList => by rwa [Simple.Parallel]
  · exact (textArgument_parallel hs h).map
      fun _ _ hText => by rw [hText]; exact Simple.parallel_of_nesting rfl
  · exact .error _ 0 hName.offset (.cons hStart h)

include hDistance in
theorem plain_parallel (hName : t.Parallel R t') (h : TokensParallel R ts ts') :
    Outcome.Parallel R (Simple.Parallel R) (plain t ts) (plain t' ts') := by
  rw [plain, plain, pseudoName_parallel hName]
  split
  · exact .ok (Simple.parallel_of_nesting rfl) h
  · split
    · exact .error _ 0 (stop_parallel hDistance hName) h
    · exact .error _ 0 hName.offset h

include hDistance in
theorem pseudo_parallel (hs : s.Parallel R s') (hGroups : GroupsParallel R groups groups')
    (hName : t.Parallel R t') (h : TokensParallel R ts ts') :
    Outcome.Parallel R (Simple.Parallel R) (pseudo s groups t ts) (pseudo s' groups' t' ts') := by
  cases h with
  | nil => exact plain_parallel hDistance hName .nil
  | cons hFirst hRest =>
      rw [pseudo, pseudo, hFirst.kind_eq]
      split
      · exact functional_parallel hDistance hs hGroups hName hFirst hRest
      · exact plain_parallel hDistance hName (.cons hFirst hRest)

include hDistance in
/-- A part is found on both sides or on neither. -/
theorem part_parallel (hs : s.Parallel R s') (hGroups : GroupsParallel R groups groups')
    (h : TokensParallel R ts ts') :
    Outcome.Parallel R (Option.Rel (Simple.Parallel R)) (part s groups ts)
      (part s' groups' ts') := by
  cases h with
  | nil => exact .ok .none .nil
  | cons hFirst hRest =>
      rw [part, part, hFirst.kind_eq, hFirst.text_eq]
      split
      · exact .ok (.some (Simple.parallel_of_nesting rfl)) hRest
      · exact .ok (.some (Simple.parallel_of_nesting rfl)) hRest
      · exact (attributeTest_parallel hs hRest).map
          fun _ _ hTest => by rw [hTest]; exact .some (Simple.parallel_of_nesting rfl)
      · exact (pseudo_parallel hDistance hs hGroups hFirst hRest).map
          fun _ _ hSimple => .some hSimple
      · exact fail_parallel hs (.cons hFirst hRest)
      · exact fail_parallel hs (.cons hFirst hRest)
      · exact fail_parallel hs (.cons hFirst hRest)
      · exact fail_parallel hs (.cons hFirst hRest)
      · exact .ok .none (.cons hFirst hRest)

/-- The loop over parts as one step and the rest. -/
theorem parts_eq (s : Setting) (groups : GroupParser) (tokens : List Token) :
    parts s groups tokens = (part s groups tokens).andThen fun found rest =>
      match found with
      | some simple => (parts s groups rest).map (simple :: ·)
      | none => .ok [] rest := by
  rw [parts]
  split
  all_goals
    rename_i hPart
    rw [hPart]
    rfl

include hDistance in
theorem parts_parallel {ts ts' : List Token} (hs : s.Parallel R s')
    (hGroups : GroupsParallel R groups groups') (h : TokensParallel R ts ts') :
    Outcome.Parallel R (PartsParallel R) (parts s groups ts) (parts s' groups' ts') := by
  rw [parts_eq, parts_eq]
  have hPart := part_parallel hDistance hs hGroups h
  generalize hLeft : part s groups ts = found at hPart ⊢
  generalize part s' groups' ts' = found' at hPart ⊢
  cases hPart with
  | error expected count hOffset hRest => exact .error expected count hOffset hRest
  | ok hFound hRest =>
      cases hFound with
      | none => exact .ok (by rw [PartsParallel]; trivial) hRest
      | some hSimple =>
          have hLess := length_lt_of_part hLeft
          refine (parts_parallel hs hGroups hRest).map fun _ _ hParts => ?_
          rw [PartsParallel]
          exact ⟨hSimple, hParts⟩
termination_by ts.length

include hDistance in
theorem compound_parallel (hs : s.Parallel R s') (hGroups : GroupsParallel R groups groups')
    (h : TokensParallel R ts ts') :
    Outcome.Parallel R (Compound.Parallel R) (compound s groups ts) (compound s' groups' ts') := by
  have hOffset := nextOffset_parallel hs h
  refine (qualifiedName_parallel hs h).andThen ?_
  rintro name _ rest rest' rfl hRest
  refine (parts_parallel hDistance hs hGroups hRest).andThen ?_
  intro parts parts' rest rest' hParts hRest
  cases name with
  | some name =>
      refine .ok ?_ hRest
      rw [Compound.Parallel, PartsParallel]
      refine ⟨hOffset, ?_, hParts⟩
      obtain ⟨qualifier, _ | name⟩ := name <;> exact Simple.parallel_of_nesting rfl
  | none =>
      cases parts with
      | nil =>
          cases parts' with
          | nil => exact fail_parallel hs hRest
          | cons part' parts' => simp [PartsParallel] at hParts
      | cons part parts =>
          cases parts' with
          | nil => simp [PartsParallel] at hParts
          | cons part' parts' =>
              refine .ok ?_ hRest
              rw [Compound.Parallel]
              exact ⟨hOffset, hParts⟩

theorem link_parallel (h : TokensParallel R ts ts') :
    Outcome.Parallel R Eq (link ts) (link ts') := by
  have hBlank := dropBlank_parallel h
  rw [link, link, nextKind_parallel h]
  generalize dropBlank ts = rest at hBlank ⊢
  generalize dropBlank ts' = rest' at hBlank ⊢
  cases hBlank with
  | nil => exact .ok rfl .nil
  | cons hFirst hRest =>
      simp only [hFirst.kind_eq, hFirst.text_eq]
      split
      · split
        · exact .ok rfl (dropBlank_parallel hRest)
        · exact .error _ 0 hFirst.offset hRest
      · split
        · exact .ok rfl (.cons hFirst hRest)
        · exact .ok rfl (.cons hFirst hRest)

/-- The loop over compounds as one step and the rest. -/
theorem chain_eq (s : Setting) (groups : GroupParser) (left : Complex) (tokens : List Token) :
    chain s groups left tokens = (link tokens).andThen fun found rest =>
      match found with
      | none => .ok left rest
      | some combinator => (compound s groups rest).andThen fun right rest =>
        chain s groups (left.joined combinator right) rest := by
  rw [chain]
  split
  · rename_i hLink
    rw [hLink]
    rfl
  · rename_i hLink
    rw [hLink]
    rfl
  · rename_i hLink
    rw [hLink]
    simp only [Outcome.andThen]
    split
    all_goals
      rename_i hCompound
      rw [hCompound]

include hDistance in
theorem chain_parallel {ts ts' : List Token} {left left' : Complex} (hs : s.Parallel R s')
    (hGroups : GroupsParallel R groups groups') (hLeft : left.Parallel R left')
    (h : TokensParallel R ts ts') :
    Outcome.Parallel R (Complex.Parallel R) (chain s groups left ts)
      (chain s' groups' left' ts') := by
  rw [chain_eq, chain_eq]
  have hLink := link_parallel h
  generalize hFront : link ts = found at hLink ⊢
  generalize link ts' = found' at hLink ⊢
  cases hLink with
  | error expected count hOffset hRest => exact .error expected count hOffset hRest
  | @ok found _ rest rest' hSame hRest =>
      subst hSame
      cases found with
      | none => exact .ok hLeft hRest
      | some combinator =>
          have hCompound := compound_parallel hDistance hs hGroups hRest
          simp only [Outcome.andThen]
          generalize hRight : compound s groups rest = right at hCompound ⊢
          generalize compound s' groups' rest' = right' at hCompound ⊢
          cases hCompound with
          | error expected count hOffset hRest => exact .error expected count hOffset hRest
          | ok hCompound hBehind =>
              have hLess := length_lt_of_link hFront
              have hLess' := (compound_bounded s groups).length_le_of_ok hRight
              refine chain_parallel hs hGroups ?_ hBehind
              rw [Complex.Parallel]
              exact ⟨hLeft, rfl, hCompound⟩
termination_by ts.length

include hDistance in
theorem alternative_parallel (hs : s.Parallel R s') (hGroups : GroupsParallel R groups groups')
    (h : TokensParallel R ts ts') :
    Outcome.Parallel R (Complex.Parallel R) (alternative s groups ts)
      (alternative s' groups' ts') := by
  refine Outcome.Parallel.andThen (V := Complex.Parallel R) ?_ fun _ _ _ _ hSelector hRest =>
    .ok hSelector (dropBlank_parallel hRest)
  refine (compound_parallel hDistance hs hGroups (dropBlank_parallel h)).andThen ?_
  intro first first' rest rest' hFirst hRest
  refine chain_parallel hDistance hs hGroups ?_ hRest
  rwa [Complex.Parallel]

/-- The loop over selectors as one step and the rest. -/
theorem list_eq (s : Setting) (groups : GroupParser) (close : Token.Kind) (tokens : List Token) :
    list s groups close tokens = (alternative s groups tokens).andThen fun selector rest =>
      if nextKind rest = .separator then (list s groups close (rest.drop 1)).map (selector :: ·)
      else if nextKind rest = close then .ok [selector] rest
      else fail s (listEnd close) rest := by
  rw [list]
  split
  · rename_i hRead
    rw [hRead]
    rfl
  · rename_i hRead
    rw [hRead]
    simp [Outcome.andThen, nextKind, eq_comm]
  · rename_i hRead
    rw [hRead]
    rfl

include hDistance in
/-- The run lemma: rows of the same tokens are read as related lists, or fail alike. -/
theorem list_parallel {close : Token.Kind} {ts ts' : List Token} (hs : s.Parallel R s')
    (hGroups : GroupsParallel R groups groups') (h : TokensParallel R ts ts') :
    Outcome.Parallel R (ListParallel R) (list s groups close ts) (list s' groups' close ts') := by
  rw [list_eq, list_eq]
  have hRead := alternative_parallel hDistance hs hGroups h
  generalize hFront : alternative s groups ts = found at hRead ⊢
  generalize alternative s' groups' ts' = found' at hRead ⊢
  cases hRead with
  | error expected count hOffset hRest => exact .error expected count hOffset hRest
  | @ok selector selector' rest rest' hSelector hRest =>
      simp only [Outcome.andThen, nextKind_parallel hRest]
      split
      · rename_i hKind
        have hLess : rest.length - 1 < ts.length := by
          have hLength := (alternative_bounded s groups).length_le_of_ok hFront
          cases rest with
          | nil => cases hKind
          | cons t rest => exact Nat.lt_of_succ_le hLength
        refine (list_parallel hs hGroups (drop_parallel 1 hRest)).map fun _ _ hList => ?_
        rw [ListParallel]
        exact ⟨hSelector, hList⟩
      · split
        · refine .ok ?_ hRest
          rw [ListParallel, ListParallel]
          exact ⟨hSelector, trivial⟩
        · exact fail_parallel hs hRest
termination_by ts.length

end

/-- Groups may be nested as deep in both places. -/
theorem groups_parallel
    (hDistance : ∀ offset offset' n, R offset offset' → R (offset + n) (offset' + n))
    (hs : s.Parallel R s') (allowance : Nat) :
    GroupsParallel R (groups s allowance) (groups s' allowance) := by
  induction allowance with
  | zero =>
      intro offset offset' ts ts' hOffset h
      rw [groups, groups, hs.limit_eq]
      exact .error _ 0 hOffset h
  | succ allowance ih =>
      intro offset offset' ts ts' _ h
      exact (list_parallel hDistance hs ih (drop_parallel 1 h)).inGroup.andThen
        fun _ _ _ _ hList hRest => .ok hList (drop_parallel 1 hRest)

/-- All tokens of a source are read in parallel under a limit. -/
theorem source_parallel {offset offset' : Nat}
    (hDistance : ∀ offset offset' n, R offset offset' → R (offset + n) (offset' + n))
    (hTokens : TokensParallel R ts ts') (hStop : R offset offset') (limit : Nat) :
    Outcome.Parallel R (ListParallel R)
      (list ⟨offset, limit⟩ (groups ⟨offset, limit⟩ limit) .eof ts)
      (list ⟨offset', limit⟩ (groups ⟨offset', limit⟩ limit) .eof ts') := by
  have hs : Setting.Parallel R ⟨offset, limit⟩ ⟨offset', limit⟩ := ⟨hStop, rfl⟩
  exact list_parallel hDistance hs (groups_parallel hDistance hs limit) hTokens

end Parser

/-- What an attempt comes to, the tokens that are left aside. -/
def Outcome.result {α : Type} : Outcome α → Except SyntaxError α
  | .ok value _ => .ok value
  | .error fault _ _ => .error fault

namespace Outcome

variable {α β : Type} {V : α → α → Prop} {o o' : Outcome α}

theorem result_map (f : α → β) : (o.map f).result = o.result.map f := by
  cases o <;> rfl

/-- What is seen from outside: related lists, or errors that expect the same at related offsets. -/
theorem Parallel.result (h : Outcome.Parallel R V o o') :
    (∃ value value', o.result = .ok value ∧ o'.result = .ok value' ∧ V value value') ∨
      ∃ fault fault', o.result = .error fault ∧ o'.result = .error fault' ∧
        R fault.offset fault'.offset ∧ fault'.expected = fault.expected := by
  cases h with
  | ok hValue _ => exact Or.inl ⟨_, _, rfl, rfl, hValue⟩
  | error expected _ hOffset _ => exact Or.inr ⟨_, _, rfl, rfl, hOffset, rfl⟩

end Outcome

/-- What a reader gives back leaves its remaining tokens aside. -/
theorem TokenReader.next_eq_result (r : TokenReader) : r.next.1 = r.outcome.result := by
  unfold next
  split
  all_goals
    rename_i hRead
    rw [hRead]
    rfl

/-- A reader of scanned tokens stops at the end of the source. -/
theorem TokenReader.start_append_eof (limit : Nat) (front : List Token) (offset : Nat) :
    start limit (front ++ [⟨.eof, [], offset⟩]) = ⟨Mode.uncommented front, ⟨offset, limit⟩, 0⟩ := by
  simp [start, withoutEnd, stopOf, Mode.uncommented, Token.Kind.isComment]

namespace Selector

/-- What a source with these tokens is read as. -/
theorem parse_eq_result {source : Text} {front : List Token} {offset : Nat}
    (h : tokenize source = .ok (front ++ [⟨.eof, [], offset⟩])) (limit : Nat) :
    parse source limit =
      (Parser.list ⟨offset, limit⟩ (Parser.groups ⟨offset, limit⟩ limit) .eof
        (Mode.uncommented front)).result.mapError .grammatical := by
  rw [parse, h]
  simp only [TokenReader.next_eq_result, TokenReader.start_append_eof, TokenReader.outcome,
    Nat.sub_zero]

/-- Two sources whose tokens differ in their offsets, comments aside, are read as related lists, or
are both at fault for the same reason. -/
theorem parse_parallel {source source' : Text} {front front' : List Token} {offset offset' : Nat}
    (hDistance : ∀ offset offset' n, R offset offset' → R (offset + n) (offset' + n))
    (h : tokenize source = .ok (front ++ [⟨.eof, [], offset⟩]))
    (h' : tokenize source' = .ok (front' ++ [⟨.eof, [], offset'⟩]))
    (hTokens : TokensParallel R (Mode.uncommented front) (Mode.uncommented front'))
    (hStop : R offset offset') (limit : Nat) :
    (∃ list list', parse source limit = .ok list ∧ parse source' limit = .ok list' ∧
      ListParallel R list list') ∨
    ∃ fault fault', parse source limit = .error (.grammatical fault) ∧
      parse source' limit = .error (.grammatical fault') ∧
      R fault.offset fault'.offset ∧ fault'.expected = fault.expected := by
  rw [parse_eq_result h, parse_eq_result h']
  rcases (Parser.source_parallel hDistance hTokens hStop limit).result with
    ⟨list, list', hRead, hRead', hList⟩ | ⟨fault, fault', hRead, hRead', hFault⟩
  · rw [hRead, hRead']
    exact Or.inl ⟨list, list', rfl, rfl, hList⟩
  · rw [hRead, hRead']
    exact Or.inr ⟨fault, fault', rfl, rfl, hFault⟩

end Selector

end SelectorXPath
