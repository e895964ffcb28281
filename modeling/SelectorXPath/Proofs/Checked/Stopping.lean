import SelectorXPath.Proofs.Checked.Loops

/-!
# Every reading stops

Each reading of the grammar ends, wherever in the tokens it is started, if the last of them is a
mark of the end: no loop takes that for something to go on with, and everything else that it goes on
with moves the cursor. Groups stop for two reasons, each of which would be enough: one that is
inside of another has one more around it, and it starts at a later token.
-/

namespace SelectorXPath.Checked

open SelectorXPath.Text

/-- Each group inside of another one takes a turn. -/
theorem group_succ (limit : DepthLimit) (tokens : List Token) (turns : Nat) :
    group limit tokens (turns + 1) = nested limit tokens (group limit tokens turns) :=
  rfl

section

variable {tokens : List Token} {limit depth least : Nat} {c : Cursor}
variable (hMarked : Marked tokens)

include hMarked

/-- Skipping white space moves the cursor on, or leaves the loop where it stands. -/
theorem Ends.blank (spaced : Bool) (h : Stands tokens limit depth least c) :
    Ends tokens limit (blank tokens spaced) c
      (Turn.Advances (fun spaced => Stands tokens limit depth (least + spaced.toNat))
        (fun found d => found = spaced ∧ d = c) c) := by
  refine .of_peek h fun token hToken => ?_
  split
  · rename_i hBlank
    have hKind : token.kind ≠ .eof := by rw [hBlank]; nofun
    exact .of_advance_of_kind hMarked h.here hToken hKind fun d hMoved =>
      .pure ⟨h.beyond hMoved, hMoved.least_le⟩
  · exact .pure ⟨rfl, rfl⟩

/-- White space that has been skipped lies behind the cursor. -/
theorem Ends.skipBlank (h : Stands tokens limit depth least c) :
    Ends tokens limit (skipBlank tokens) c
      (fun spaced => Stands tokens limit depth (least + spaced.toNat)) := by
  rw [Checked.skipBlank, blanks_eq_repeated]
  refine .repeated (fun spaced : Bool => Stands tokens limit depth (least + spaced.toNat)) ?_ ?_ h
    (Nat.le_add_left _ _)
  · exact fun _ _ hStands => hStands.position_lt
  · intro spaced d hStands
    have hBehind := hStands.weaken (Nat.le_add_right least spaced.toNat)
    refine (Ends.blank hMarked spaced hBehind).mono fun turn e hTurn => ?_
    cases turn with
    | again state => exact hTurn
    | leave found =>
      obtain ⟨rfl, rfl⟩ := hTurn
      exact hStands

theorem Ends.of_skipBlank {β : Type} {f : Bool → Reading β} {post : β → Cursor → Prop}
    (h : Stands tokens limit depth least c)
    (hNext : ∀ spaced d, Stands tokens limit depth least d → Ends tokens limit (f spaced) d post) :
    Ends tokens limit (Checked.skipBlank tokens >>= f) c post :=
  (Ends.skipBlank hMarked h).bind fun spaced d hBehind =>
    hNext spaced d (hBehind.weaken (Nat.le_add_right _ _))

/-- A token that is found is passed, and nothing is passed otherwise. -/
theorem Ends.expect (h : Stands tokens limit depth least c) (kind : Token.Kind) (delimiter : Char) :
    Ends tokens limit (expect tokens kind delimiter) c
      (fun _ => Stands tokens limit depth least) := by
  refine .of_peek h fun token hToken => ?_
  split
  · exact .of_advance hMarked h fun _ d _ hBehind _ => .pure hBehind
  · exact .failHere h

theorem Ends.localName (h : Stands tokens limit depth least c) (expected : Expected) :
    Ends tokens limit (localName tokens expected) c
      (fun _ => Stands tokens limit depth least) := by
  refine .of_peek h fun token hToken => .of_attempt (name?_eq token) ?_
  cases Parser.name? token with
  | some name => exact .of_advance hMarked h fun _ d _ hBehind _ => .pure hBehind
  | none => exact .failHere h

theorem Ends.qualifiedName (h : Stands tokens limit depth least c) (expected : Expected) :
    Ends tokens limit (qualifiedName tokens expected) c
      (fun _ => Stands tokens limit depth least) := by
  have hLocal (c' : Cursor) (qualifier : Qualifier) (h : Stands tokens limit depth least c') :
      Ends tokens limit
        (do
          let _ ← advance tokens
          let inner ← Checked.localName tokens expected
          return some (qualifier, inner)) c' (fun _ => Stands tokens limit depth least) :=
    .of_advance hMarked h fun _ d _ hBar _ =>
      (Ends.localName hMarked hBar expected).bind fun inner e hBehind => .pure hBehind
  refine .of_peek h fun token hToken => .of_attempt (name?_eq token) ?_
  cases Parser.name? token with
  | some name =>
    refine .of_advance hMarked h fun _ d _ hName _ => .of_peek hName fun bar hBar => ?_
    split
    · exact hLocal d _ hName
    · exact .pure hName
  | none =>
    dsimp only
    split
    · exact hLocal c _ h
    · exact .pure h

variable (hCuttable : Cuttable tokens)

include hCuttable in
/-- A piece of a string is passed, and a mark ends the loop. -/
theorem Ends.stringPiece (mark : QuoteMark) (done : Text) (h : Stands tokens limit depth least c) :
    Ends tokens limit (stringPiece tokens mark done) c
      (Turn.Advances (fun _ => Stands tokens limit depth least)
        (fun _ => Stands tokens limit depth least) c) := by
  refine .of_advance hMarked h.here fun token d hToken hBehind hMoved => ?_
  cases hKind : token.kind with
  | stringChars => exact .pure (h.again (hMoved (by rw [hKind]; nofun)))
  | escapedChar =>
    have hText := hCuttable.fromByte? (List.mem_of_getElem? hToken) (by rw [hKind]; rfl)
    exact .of_attempt hText (.pure (h.again (hMoved (by rw [hKind]; nofun))))
  | _ =>
    dsimp only
    split
    · exact .pure (hBehind.weaken h.least_le)
    · exact .throw _

include hCuttable in
theorem Ends.value (h : Stands tokens limit depth least c) :
    Ends tokens limit (value tokens) c (fun _ => Stands tokens limit depth least) := by
  refine .of_peek h fun token hToken => ?_
  cases token.kind with
  | identifier =>
    exact .of_advance hMarked h fun name d _ hBehind _ => .attempt (unescape_eq name.text) hBehind
  | number => exact .of_advance hMarked h fun _ d _ hBehind _ => .pure hBehind
  | stringStart mark =>
    refine .of_advance hMarked h fun _ d _ hBehind _ => ?_
    rw [stringText_eq_repeated]
    exact .repeated _ (fun _ _ hStands => hStands.position_lt)
      (fun done _ => .stringPiece hMarked hCuttable mark done) hBehind (Nat.le_add_left _ _)
  | _ => exact .failHere h

include hCuttable in
theorem Ends.comparison (h : Stands tokens limit depth least c) :
    Ends tokens limit (comparison tokens) c (fun _ => Stands tokens limit depth least) := by
  refine .of_peek h fun token hToken => ?_
  split
  · refine .of_advance hMarked h fun symbol d _ hSymbol _ => ?_
    cases AttributeOperator.ofSymbol? symbol.text with
    | some operator =>
      refine .of_skipBlank hMarked hSymbol fun _ d hBlank => ?_
      refine (Ends.value hMarked hCuttable hBlank).bind fun value d hValue => ?_
      exact .of_skipBlank hMarked hValue fun _ d hBehind => .pure hBehind
    | none => exact .throw _
  · exact .pure h

include hCuttable in
/-- Wherever an attribute test breaks off, the cursor has not gone back. -/
theorem Ends.attributeTest (h : Stands tokens limit depth least c) :
    Ends tokens limit (attributeTest tokens) c (fun _ => Stands tokens limit depth least) := by
  refine .of_skipBlank hMarked h fun _ d hBlank => .of_peek hBlank fun start hStart => ?_
  refine (Ends.qualifiedName hMarked hBlank .attributeName).bind fun name d hName => ?_
  match name with
  | some (qualifier, some name) =>
    refine .of_skipBlank hMarked hName fun _ d hBlank => ?_
    refine (Ends.comparison hMarked hCuttable hBlank).bind fun found d hFound => ?_
    exact (Ends.expect hMarked hFound .attributeEnd ']').bind fun _ d hBehind => .pure hBehind
  | some (qualifier, none) => exact .throw _
  | none => exact .throw _

theorem Ends.positionsPiece (done : Text) (h : Stands tokens limit depth least c) :
    Ends tokens limit (positionsPiece tokens done) c
      (Turn.Advances (fun _ => Stands tokens limit depth least)
        (fun _ => Stands tokens limit depth least) c) := by
  refine .of_peek h fun token hToken => ?_
  cases hKind : token.kind with
  | parenthesesEnd => exact .pure h
  | number | identifier | combinator | whitespace =>
    exact .of_advance_of_kind hMarked h.here hToken (by rw [hKind]; nofun) fun d hMoved =>
      .pure (h.again hMoved)
  | _ => exact .failHere h

theorem Ends.positions (h : Stands tokens limit depth least c) :
    Ends tokens limit (positions tokens) c (fun _ => Stands tokens limit depth least) := by
  refine .of_advance hMarked h fun parenthesis d _ hOpen _ => ?_
  have hText : Ends tokens limit (positionsText tokens tokens.length []) d
      (fun _ => Stands tokens limit depth least) := by
    rw [positionsText_eq_repeated]
    exact .repeated _ (fun _ _ hStands => hStands.position_lt)
      (fun done _ => .positionsPiece hMarked done) hOpen (Nat.le_add_left _ _)
  refine hText.bind fun text d hClose => .of_attempt (positionsOf_eq text) ?_
  cases AnPlusB.read? text with
  | some positions => exact .of_advance hMarked hClose fun _ d _ hBehind _ => .pure hBehind
  | none => exact .throw _

include hCuttable in
theorem Ends.textArgument (h : Stands tokens limit depth least c) :
    Ends tokens limit (textArgument tokens) c (fun _ => Stands tokens limit depth least) := by
  refine .of_advance hMarked h fun _ d _ hOpen _ => .of_skipBlank hMarked hOpen fun _ d hBlank => ?_
  refine (Ends.value hMarked hCuttable hBlank).bind fun text d hText => ?_
  refine .of_skipBlank hMarked hText fun _ d hBlank => ?_
  exact (Ends.expect hMarked hBlank .parenthesesEnd ')').bind fun _ d hBehind => .pure hBehind

/-- A combinator that is found moves the cursor on. -/
theorem Ends.link (h : Stands tokens limit depth least c) :
    Ends tokens limit (link tokens) c
      (fun found => Stands tokens limit depth (least + found.isSome.toNat)) := by
  refine (Ends.skipBlank hMarked h).bind fun spaced d hBlank => .of_peek hBlank fun token hToken => ?_
  have hStands := hBlank.weaken (Nat.le_add_right _ _)
  split
  · rename_i hKind
    refine .of_advance_of_kind hMarked hStands hToken (by rw [hKind]; nofun) fun e hMoved => ?_
    cases Combinator.ofSymbol? token.text with
    | some combinator => exact .of_skipBlank hMarked hMoved fun _ e hBehind => .pure hBehind
    | none => exact .throw _
  · split
    · rename_i hSpaced
      -- no token is read here, but the white space in front has been
      rw [hSpaced.1] at hBlank
      exact .pure hBlank
    · exact .pure hStands

omit hMarked in
theorem Ends.plain (token : Token) (name : Text) (h : Stands tokens limit depth least c) :
    Ends tokens limit (plain token name) c (fun _ => Stands tokens limit depth least) := by
  unfold Checked.plain
  cases PseudoClass.ofName? name with
  | some pseudoClass => exact .pure h
  | none =>
    dsimp only
    split
    · exact .throw _
    · exact .throw _

omit hMarked in
include hCuttable in
/-- The name of a token can be cut off its sign. -/
theorem Ends.of_nameBehindSign {β : Type} {f : Text → Reading β} {post : β → Cursor → Prop}
    {token : Token} (hToken : token ∈ tokens) (hCut : isCut token.kind = true)
    (hNext : ∀ name, Ends tokens limit (f name) c post) :
    Ends tokens limit (nameBehindSign token >>= f) c post := by
  rw [nameBehindSign, bind_assoc]
  refine .of_attempt (hCuttable.fromByte? hToken hCut) ?_
  exact .of_attempt (unescape_eq (token.text.drop 1)) (hNext _)

/-- Groups that are opened behind the index `start` are read to an end, without going back. -/
def GroupsEnd (tokens : List Token) (limit depth start : Nat)
    (group : Token → Reading SelectorList) : Prop :=
  ∀ token c, Stands tokens limit depth (start + 1) c →
    Ends tokens limit (group token) c (fun _ => Stands tokens limit depth c.position)

variable {start : Nat} {group : Token → Reading SelectorList}
variable (hGroups : GroupsEnd tokens limit depth start group)

include hCuttable hGroups

/-- A group is opened only behind the token that names it, so that it stands farther on than what is
around it. -/
theorem Ends.functional (token : Token) (name : Text) (h : Stands tokens limit depth least c)
    (hStart : start < least) :
    Ends tokens limit (functional group tokens token name) c
      (fun _ => Stands tokens limit depth least) := by
  have hGroup : Ends tokens limit (group token) c (fun _ => Stands tokens limit depth least) :=
    (hGroups token c (h.weaken hStart)).mono fun _ d hBehind => hBehind.weaken h.least_le
  rw [Checked.functional]
  cases FunctionalClass.ofName? name with
  | none => exact .throw _
  | some functional =>
    cases functional with
    | nth counting => exact (Ends.positions hMarked h).bind fun _ d hBehind => .pure hBehind
    | not => exact hGroup.bind fun _ d hBehind => .pure hBehind
    | has => exact hGroup.bind fun _ d hBehind => .pure hBehind
    | contains =>
      exact (Ends.textArgument hMarked hCuttable h).bind fun _ d hBehind => .pure hBehind

/-- The group of a pseudo-class starts behind its name. -/
theorem Ends.pseudo {token : Token} (h : Stands tokens limit depth least c) (hStart : start ≤ least)
    (hToken : tokens[c.position]? = some token) (hKind : token.kind = .pseudoClass) :
    Ends tokens limit (pseudo group tokens) c (fun _ => Stands tokens limit depth (least + 1)) := by
  refine .of_advance_of_kind hMarked h hToken (by rw [hKind]; nofun) fun d hMoved => ?_
  refine .of_nameBehindSign hCuttable (List.mem_of_getElem? hToken) (by rw [hKind]; rfl) ?_
  refine fun name => .of_peek hMoved fun next hNext => ?_
  split
  · exact .functional hMarked hCuttable hGroups token _ hMoved (Nat.lt_succ_of_le hStart)
  · exact .plain token _ hMoved

/-- A part that is found moves the cursor on. -/
theorem Ends.part (h : Stands tokens limit depth least c) (hStart : start ≤ least) :
    Ends tokens limit (part group tokens) c
      (fun found => Stands tokens limit depth (least + found.isSome.toNat)) := by
  refine .of_peek h fun token hToken => ?_
  have hMember := List.mem_of_getElem? hToken
  cases hKind : token.kind with
  | classSelector | idSelector =>
    refine .of_nameBehindSign hCuttable hMember (by rw [hKind]; rfl) fun name => ?_
    exact .of_advance_of_kind hMarked h hToken (by rw [hKind]; nofun) fun d hMoved => .pure hMoved
  | attributeStart =>
    refine .of_advance_of_kind hMarked h hToken (by rw [hKind]; nofun) fun d hMoved => ?_
    exact (Ends.attributeTest hMarked hCuttable hMoved).bind fun _ d hBehind => .pure hBehind
  | pseudoClass =>
    exact (Ends.pseudo hMarked hCuttable hGroups h hStart hToken hKind).bind
      fun _ d hBehind => .pure hBehind
  | pseudoElement => exact .throw _
  | identifier | universal | namespaceSeparator => exact .failHere h
  | _ => exact .pure h

/-- One turn of the loop over parts moves the cursor on, or leaves the loop. -/
theorem Ends.nextPart (done : List Simple) (h : Stands tokens limit depth least c)
    (hStart : start ≤ least) :
    Ends tokens limit (nextPart tokens group done) c
      (Turn.Advances (fun _ => Stands tokens limit depth least)
        (fun _ => Stands tokens limit depth least) c) := by
  have hBehind := Nat.le_trans hStart h.least_le
  refine (Ends.part hMarked hCuttable hGroups h.here hBehind).bind fun found d hFound => ?_
  cases found with
  | some simple => exact .pure (h.again hFound)
  | none => exact .pure (hFound.weaken h.least_le)

theorem Ends.compound (h : Stands tokens limit depth least c) (hStart : start ≤ least) :
    Ends tokens limit (compound group tokens) c (fun _ => Stands tokens limit depth least) := by
  refine .of_peek h fun first hFirst => ?_
  refine (Ends.qualifiedName hMarked h .elementName).bind fun name d hName => ?_
  have hParts : Ends tokens limit (parts group tokens tokens.length) d
      (fun _ => Stands tokens limit depth least) := by
    rw [parts_eq_repeated]
    exact .repeated _ (fun _ _ hStands => hStands.position_lt)
      (fun done _ hStands => .nextPart hMarked hCuttable hGroups done hStands hStart) hName
      (Nat.le_add_left _ _)
  refine hParts.bind fun parts e hBehind => ?_
  match name, parts with
  | none, [] => exact .failHere hBehind
  | none, part :: parts => exact .pure hBehind
  | some name, parts => exact .pure hBehind

/-- One turn of the loop over compounds does, too. -/
theorem Ends.nextCompound (left : Complex) (h : Stands tokens limit depth least c)
    (hStart : start ≤ least) :
    Ends tokens limit (nextCompound tokens group left) c
      (Turn.Advances (fun _ => Stands tokens limit depth least)
        (fun _ => Stands tokens limit depth least) c) := by
  refine (Ends.link hMarked h.here).bind fun combinator d hLink => ?_
  cases combinator with
  | none => exact .pure (hLink.weaken h.least_le)
  | some combinator =>
    have hBehind : start ≤ c.position + 1 := by
      have hLeast := h.least_le
      omega
    refine (Ends.compound hMarked hCuttable hGroups hLink hBehind).bind fun right e hRight => ?_
    exact .pure (h.again hRight)

theorem Ends.alternative (h : Stands tokens limit depth least c) (hStart : start ≤ least) :
    Ends tokens limit (alternative group tokens) c (fun _ => Stands tokens limit depth least) := by
  refine .of_skipBlank hMarked h fun _ d hBlank => ?_
  refine (Ends.compound hMarked hCuttable hGroups hBlank hStart).bind fun first d hFirst => ?_
  have hChain : Ends tokens limit (chain group tokens tokens.length (.single first)) d
      (fun _ => Stands tokens limit depth least) := by
    rw [chain_eq_repeated]
    exact .repeated _ (fun _ _ hStands => hStands.position_lt)
      (fun left _ hStands => .nextCompound hMarked hCuttable hGroups left hStands hStart) hFirst
      (Nat.le_add_left _ _)
  refine hChain.bind fun selector d hSelector => ?_
  exact .of_skipBlank hMarked hSelector fun _ d hBehind => .pure hBehind

/-- The cursor stands at a token of the kind that closes a list. -/
structure Closed (tokens : List Token) (limit depth least : Nat) (close : Token.Kind) (c : Cursor) :
    Prop extends Stands tokens limit depth least c where
  at_close : ∃ token, tokens[c.position]? = some token ∧ token.kind = close

/-- One turn of the loop over selectors passes a comma, or stands at what closes the list. -/
theorem Ends.nextSelector (close : Token.Kind) (done : SelectorList)
    (h : Stands tokens limit depth least c) (hStart : start ≤ least) :
    Ends tokens limit (nextSelector tokens group close done) c
      (Turn.Advances (fun _ => Stands tokens limit depth least)
        (fun _ => Closed tokens limit depth least close) c) := by
  have hBehind := Nat.le_trans hStart h.least_le
  refine (Ends.alternative hMarked hCuttable hGroups h.here hBehind).bind fun selector d hRead => ?_
  refine .of_peek hRead fun token hToken => ?_
  split
  · rename_i hKind
    exact .of_advance_of_kind hMarked hRead hToken (by rw [hKind]; nofun) fun e hMoved =>
      .pure (h.again hMoved)
  · split
    · rename_i hClose
      exact .pure ⟨hRead.weaken h.least_le, token, hToken, hClose⟩
    · exact .failHere hRead

/-- A list ends at a token that closes it, with as many groups open as before. -/
theorem Ends.list (close : Token.Kind) (h : Stands tokens limit depth least c)
    (hStart : start ≤ least) :
    Ends tokens limit (list group tokens close tokens.length) c
      (fun _ => Closed tokens limit depth least close) := by
  rw [list_eq_repeated]
  exact .repeated _ (fun _ _ hStands => hStands.position_lt)
    (fun done _ hStands => .nextSelector hMarked hCuttable hGroups close done hStands hStart) h
    (Nat.le_add_left _ _)

omit hGroups in
/-- A group ends if those inside of it do, which are deeper and start at later tokens. -/
theorem Ends.nested {limit : DepthLimit} {inner : Token → Reading SelectorList}
    (h : Stands tokens limit.value depth least c)
    (hInner : GroupsEnd tokens limit.value (depth + 1) c.position inner) (token : Token) :
    Ends tokens limit.value (nested limit tokens inner token) c
      (fun _ => Stands tokens limit.value depth c.position) := by
  rw [Checked.nested, openGroups_eq_look]
  refine .of_look ?_
  rw [h.depth_eq]
  split
  · exact .throw _
  · rename_i hAllowed
    refine .of_advance hMarked h.here fun _ d _ hOpen _ => ?_
    refine .inGroup hOpen (Nat.lt_of_not_le hAllowed) limit.le_largest (fun e hStands => ?_) ?_
    · refine (Ends.list hMarked hCuttable hInner .parenthesesEnd hStands (Nat.le_refl _)).mono ?_
      exact fun _ _ hClosed => hClosed.toStands
    · exact fun selectors e hClose =>
        .of_advance hMarked hClose fun _ e _ hBehind _ => .pure hBehind

omit hGroups in
/-- All the groups end, by induction on the turns that they take. The limit bounds these, and so do
the tokens that are left. -/
theorem groupsEnd (limit : DepthLimit) {turns : Nat} (depth start : Nat)
    (hTurns : limit.value < depth + turns ∨ tokens.length ≤ start + turns) :
    GroupsEnd tokens limit.value depth start (Checked.group limit tokens turns) := by
  induction turns generalizing depth start with
  | zero =>
    -- without turns, neither bound leaves a place for the cursor
    intro token c h
    obtain ⟨hInside, hBehind, -, hDepth⟩ := h
    omega
  | succ turns ih =>
    intro token c h
    have hBehind := h.least_le
    rw [group_succ]
    exact .nested hMarked hCuttable h (ih (depth + 1) c.position (by omega)) token

end

end SelectorXPath.Checked
