import SelectorXPath.Proofs.Selector.Respaced
import SelectorXPath.Proofs.Selector.Parallel
import SelectorXPath.Proofs.Token.Joined

/-! Sources with a sign between them are read one by one. A comma puts the selectors of the second
behind those of the first, a combinator makes one chain of a selector on each side. What is read of
the second source, or what is wrong with it, only lies further to the right. -/

namespace SelectorXPath

open SelectorXPath.Text

/-- The same error, so many bytes further to the right. -/
def SyntaxError.moved (n : Nat) (e : SyntaxError) : SyntaxError :=
  { e with offset := e.offset + n }

/-- The same error, so many bytes further to the right. An unbound prefix is not located. -/
def SelectorError.moved (n : Nat) : SelectorError → SelectorError
  | .lexical e => .lexical (e.moved n)
  | .grammatical e => .grammatical (e.moved n)
  | .unboundPrefix name => .unboundPrefix name

/-- The second offset lies so many bytes further to the right. -/
def IsMoved (n offset offset' : Nat) : Prop :=
  offset' = offset + n

theorem IsMoved.add {n offset offset' : Nat} (h : IsMoved n offset offset') (m : Nat) :
    IsMoved n (offset + m) (offset' + m) := by
  unfold IsMoved at *
  omega

theorem tokensParallel_moved (n : Nat) (ts : List Token) :
    TokensParallel (IsMoved n) ts (ts.map (Token.moved n)) := by
  refine List.forall₂_map_right_iff.mpr (List.forall₂_same.mpr ?_)
  exact fun _ _ => ⟨rfl, rfl, rfl⟩

/-- The chain that goes on with another one behind a combinator. -/
def Complex.linked (left : Complex) (combinator : Combinator) : Complex → Complex
  | .single right => .joined left combinator right
  | .joined middle combinator' right => .joined (left.linked combinator middle) combinator' right

/-- Chains are linked without regard to offsets. -/
theorem Complex.unplaced_linked (left : Complex) (combinator : Combinator) (right : Complex) :
    (left.linked combinator right).unplaced =
      left.unplaced.linked combinator right.unplaced := by
  cases right with
  | single _ => rfl
  | joined middle combinator' right =>
      simp only [linked, unplaced, unplaced_linked left combinator middle]

/-- A chain of two nests as deep as the deeper of them. -/
theorem Complex.nesting_linked (left : Complex) (combinator : Combinator) (right : Complex) :
    (left.linked combinator right).nesting = max left.nesting right.nesting := by
  cases right with
  | single _ => rfl
  | joined middle combinator' right =>
      simp only [linked, nesting, nesting_linked left combinator middle, Nat.max_assoc]

namespace Grammar

variable {group : List Token → SelectorList → Prop} {ts : List Token}

/-- A chain, a combinator and another chain write the chain of both. -/
theorem WritesComplex.linked {ls ms rs : List Token} {left right : Complex}
    {combinator : Combinator} (hLeft : WritesComplex group ls left)
    (hCombinator : WritesCombinator ms combinator) (hRight : WritesComplex group rs right) :
    WritesComplex group (ls ++ (ms ++ rs)) (left.linked combinator right) := by
  induction hRight with
  | single h => exact .joined hLeft hCombinator h
  | @joined ls' ms' rs' middle combinator' right _ hCombinator' hRight ih =>
      have hTokens : ls ++ (ms ++ (ls' ++ (ms' ++ rs'))) = ls ++ (ms ++ ls') ++ (ms' ++ rs') := by
        simp
      rw [hTokens]
      exact .joined ih hCombinator' hRight

theorem ne_nil_of_writesAlternatives {list : SelectorList} (h : WritesAlternatives group ts list) :
    list ≠ [] := by
  cases h <;> exact List.cons_ne_nil _ _

/-- A list with one selector is written with white space around it. -/
theorem writesAlternatives_singleton {selector : Complex}
    (h : WritesAlternatives group ts [selector]) :
    ∃ before us after, ts = before ++ us ++ after ∧ Blank before ∧
      WritesComplex group us selector ∧ Blank after := by
  cases h with
  | one hBefore h hAfter => exact ⟨_, _, _, rfl, hBefore, h, hAfter⟩
  | more _ _ _ _ hRest => exact absurd rfl (ne_nil_of_writesAlternatives hRest)

end Grammar

namespace Parser

open SelectorXPath.Grammar

variable {s : Setting} {groups : GroupParser} {group : List Token → SelectorList → Prop}

/-- Behind a list and a comma reading goes on as at the start of a list. -/
theorem list_separated (hGroups : GroupReads groups group) {close : Token.Kind}
    {ts : List Token} {comma : Token} {written : SelectorList} (hScanned : Scanned ts)
    (h : WritesAlternatives group ts written) (hComma : comma.kind = .separator)
    (rest : List Token) :
    list s groups close (ts ++ comma :: rest) = (list s groups close rest).map (written ++ ·) := by
  have hEnd (rest : List Token) (comma : Token) (hComma : comma.kind = .separator) :
      endsSelector (nextKind (comma :: rest)) = true := by
    rw [nextKind, hComma]
    rfl
  induction h with
  | @one before ts after selector hBefore h hAfter =>
      have hInner : Scanned ts := hScanned.part ⟨before, after, rfl⟩
      rw [list_eq, alternative_of_writes hGroups hInner hBefore h hAfter (hEnd rest comma hComma)]
      simp [Outcome.andThen, nextKind, hComma]
  | @more before ts after tail first selector selectors hBefore h hAfter hFirst hRest ih =>
      have hInner : Scanned ts := hScanned.part ⟨before, after ++ first :: tail, by simp⟩
      have hTail : Scanned tail :=
        hScanned.part ⟨before ++ ts ++ after ++ [first], [], by simp⟩
      rw [list_eq, List.append_assoc, List.cons_append,
        alternative_of_writes hGroups hInner hBefore h hAfter (hEnd _ first hFirst)]
      simp only [Outcome.andThen, nextKind, hFirst, if_true, List.drop_one, List.tail_cons]
      rw [ih hTail]
      cases list s groups close rest <;> rfl

end Parser

/-- Each of the signs of a combinator is a token of its own that ends what stands in front. -/
theorem Mode.isSign_combinator {c : Char} {combinator : Combinator}
    (h : Combinator.ofSymbol? [c] = some combinator) : IsSign c .combinator := by
  have hSpelled : [c] ∈ Token.Kind.spellings .combinator := by
    unfold Combinator.ofSymbol? at h
    split at h <;> simp_all [Token.Kind.spellings]
  obtain ⟨d, hSame, hSign⟩ := isSign_of_mem_spellings (Or.inl rfl) hSpelled
  obtain ⟨rfl, -⟩ := List.cons.inj hSame
  exact hSign

namespace Selector

open SelectorXPath.Grammar

variable {first second : Text} {limit : Nat} {list : SelectorList} {c : Char} {kind : Token.Kind}

/-- A list that was read is not empty. -/
theorem ne_nil_of_parse {source : Text} (h : parse source limit = .ok list) : list ≠ [] := by
  obtain ⟨tokens, -, hWrites, -⟩ := parse_eq_ok_iff.mp h
  exact ne_nil_of_writesAlternatives (writesList_iff.mp hWrites)

/-- How the scan of a source is at fault moves with it. -/
theorem scanError_moved {source source' : Text} {n : Nat}
    (h : source'.byteLength = source.byteLength + n) (e : LexError) :
    scanError source' (e.moved n) = (scanError source e).moved n := by
  have hFault : (e.moved n).fault = e.fault := rfl
  rw [scanError, scanError, hFault, h]
  split <;> rfl

theorem byteLength_joined (hSign : Mode.IsSign c kind) :
    (first ++ c :: second).byteLength = second.byteLength + (first.byteLength + 1) := by
  rw [byteLength_append, byteLength, hSign.size]
  omega

/-- What a reader sees of joined sources are the tokens of both, with the sign in between. -/
theorem visible_joined (n : Nat) {sign : Token} (hSign : sign.kind.isComment = false)
    (front back : List Token) :
    Mode.uncommented (front ++ sign :: back.map (Token.moved n)) =
      Mode.uncommented front ++ sign :: (Mode.uncommented back).map (Token.moved n) := by
  rw [← Mode.uncommented_moved]
  simp [Mode.uncommented, List.filter_append, hSign]

/-- Behind a list that is read and a comma a source is read as it is alone, further to the right. -/
theorem parse_separated (h : parse first limit = .ok list) (second : Text) :
    (∃ more more', parse second limit = .ok more ∧
      parse (first ++ ',' :: second) limit = .ok (list ++ more') ∧
      ListParallel (IsMoved (first.byteLength + 1)) more more') ∨
    ∃ e, parse second limit = .error e ∧
      parse (first ++ ',' :: second) limit = .error (e.moved (first.byteLength + 1)) := by
  have hSign := Mode.isSign_separator
  obtain ⟨tokens, hTokens, hWrites, hNesting⟩ := parse_eq_ok_iff.mp h
  have hScanned := (TokenReader.visible_of_tokenize hTokens).2
  obtain ⟨front, -, rfl⟩ := passes_of_tokenize hTokens
  rw [TokenReader.visible_append_eof] at hWrites hScanned
  cases hSecond : tokenize second with
  | error e =>
      obtain ⟨_, _, hJoined⟩ := tokenize_joined hTokens hSign second
      rw [hSecond] at hJoined
      refine Or.inr ⟨_, by rw [parse, hSecond], ?_⟩
      rw [parse, hJoined]
      exact congrArg Except.error (scanError_moved (byteLength_joined hSign) e)
  | ok more =>
      obtain ⟨back, -, rfl⟩ := passes_of_tokenize hSecond
      have hTokens' := tokenize_joined_of_ok hTokens hSecond hSign
      have hGroup : writesGroup (limit + 1) (Mode.uncommented front) list :=
        writesGroup_iff.mpr ⟨hWrites, Nat.lt_succ_of_le hNesting⟩
      have hRead (stop : Nat) (rest : List Token) :
          Parser.list ⟨stop, limit⟩ (Parser.groups ⟨stop, limit⟩ limit) .eof
            (Mode.uncommented front ++ ⟨.separator, [','], first.byteLength⟩ :: rest) =
          (Parser.list ⟨stop, limit⟩ (Parser.groups ⟨stop, limit⟩ limit) .eof rest).map
            (list ++ ·) :=
        Parser.list_separated (Parser.groups_reads _ limit) hScanned hGroup rfl rest
      rw [parse_eq_result hSecond, parse_eq_result hTokens', visible_joined _ rfl, hRead,
        Outcome.result_map]
      have hDistance (offset offset' m : Nat)
          (hMoved : IsMoved (first.byteLength + 1) offset offset') := hMoved.add m
      have hStop : IsMoved (first.byteLength + 1) second.byteLength
          (second.byteLength + (first.byteLength + 1)) := rfl
      have hSame := Parser.source_parallel hDistance
        (tokensParallel_moved _ (Mode.uncommented back)) hStop limit
      rcases hSame.result with
        ⟨more, more', hMore, hMore', hMoved⟩ | ⟨fault, fault', hFault, hFault', hOffset, hExpected⟩
      · rw [hMore, hMore']
        exact Or.inl ⟨more, more', rfl, rfl, hMoved⟩
      · obtain rfl : fault' = fault.moved (first.byteLength + 1) := by
          cases fault'
          exact congrArg₂ SyntaxError.mk hOffset hExpected
        rw [hFault, hFault']
        exact Or.inr ⟨_, rfl, rfl⟩

/-- With the sign of a combinator between two sources, each of which is read as one selector, they
are read as the chain of the two. -/
theorem parse_linked {left right : Complex} {combinator : Combinator}
    (hFirst : parse first limit = .ok [left]) (hSecond : parse second limit = .ok [right])
    (hSymbol : Combinator.ofSymbol? [c] = some combinator) :
    ∃ selector, parse (first ++ c :: second) limit = .ok [selector] ∧
      selector.unplaced = (left.linked combinator right).unplaced := by
  obtain ⟨tokens, hTokens, hWrites, hNesting⟩ := parse_eq_ok_iff.mp hFirst
  obtain ⟨tokens', hTokens', hWrites', hNesting'⟩ := parse_eq_ok_iff.mp hSecond
  obtain ⟨front, -, rfl⟩ := passes_of_tokenize hTokens
  obtain ⟨back, -, rfl⟩ := passes_of_tokenize hTokens'
  have hJoined := tokenize_joined_of_ok hTokens hTokens' (Mode.isSign_combinator hSymbol)
  rw [TokenReader.visible_append_eof] at hWrites hWrites'
  obtain ⟨list', hMoved, hSame⟩ := hWrites'.moved (first.byteLength + 1)
  obtain ⟨right', rfl⟩ : ∃ right', list' = [right'] := by
    rcases list' with _ | ⟨right', _ | ⟨_, _⟩⟩
    · cases hSame
    · exact ⟨right', rfl⟩
    · cases (List.cons.inj hSame).2
  obtain ⟨before, ls, after, hFront, hBefore, hLeft, hAfter⟩ :=
    writesAlternatives_singleton (writesList_iff.mp hWrites)
  obtain ⟨before', rs, after', hBack, hBefore', hRight, hAfter'⟩ :=
    writesAlternatives_singleton (writesList_iff.mp hMoved)
  have hRight' : right'.unplaced = right.unplaced := (List.cons.inj hSame).1
  refine ⟨left.linked combinator right', parse_eq_ok_iff.mpr ⟨_, hJoined, ?_, ?_⟩, ?_⟩
  · have hSign : WritesCombinator
        (after ++ ⟨.combinator, [c], first.byteLength⟩ :: before') combinator :=
      .sign hAfter rfl hSymbol hBefore'
    have hComment : (⟨.combinator, [c], first.byteLength⟩ : Token).kind.isComment = false := rfl
    have hVisible := visible_joined (first.byteLength + 1) hComment front back
    rw [Mode.uncommented, Mode.uncommented, Mode.uncommented, hFront, hBack] at hVisible
    rw [TokenReader.visible_append_eof, hVisible]
    have hAll : WritesAlternatives WritesList _ _ :=
      .one hBefore (hLeft.linked hSign hRight) hAfter'
    refine writesList_iff.mpr ?_
    simpa using hAll
  · simp only [listNesting, Nat.max_zero] at hNesting hNesting' ⊢
    rw [Complex.nesting_linked, ← right'.nesting_unplaced, hRight', Complex.nesting_unplaced]
    exact Nat.max_le.mpr ⟨hNesting, hNesting'⟩
  · rw [Complex.unplaced_linked, Complex.unplaced_linked, hRight']

end Selector

end SelectorXPath
