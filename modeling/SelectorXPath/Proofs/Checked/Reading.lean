import SelectorXPath.Proofs.Checked.Text
import SelectorXPath.Selector.Parts

/-!
# Reading tokens by their index

Here tokens are not taken off the front of a list. They stay where they are, a position says which
one is next, and the groups that are open are counted. The token at a position is fetched by its
index, which could be out of range, and the count could leave its range; a reading has no value
then. Its loops have as many turns as there are tokens, the mark of the end included.

`Makes` connects the two ways of reading. A reading that makes an outcome has a value, the same as
the outcome: the position is the number of tokens in front of those that are left, and a failure
leaves as many groups open as the outcome says.
-/

namespace SelectorXPath.Checked

/-- Which token is next, and how many groups are open. -/
structure Cursor where
  position : Nat
  depth : Nat
  deriving DecidableEq, Repr

/-- A computation that moves a cursor and can end with an error of the grammar. -/
abbrev Reading (α : Type) : Type :=
  ExceptT SyntaxError (StateT Cursor Checked) α

/-- Makes an operation that can fail part of a reading. -/
def attempt {α : Type} (value : Checked α) : Reading α := fun cursor =>
  value.bind fun value => some (.ok value, cursor)

/-- The token at the cursor, or the last one if the cursor stands behind it. -/
def peek (tokens : List Token) : Reading Token := fun cursor => do
  let last ← less? tokens.length 1
  let token ← tokens[min cursor.position last]?
  return (.ok token, cursor)

/-- The cursor behind the token that it stands at. It does not move behind the last one. -/
def Cursor.moved (cursor : Cursor) (last : Nat) : Cursor :=
  if cursor.position < last then { cursor with position := cursor.position + 1 } else cursor

/-- The token at the cursor, which moves behind it. -/
def advance (tokens : List Token) : Reading Token := fun cursor => do
  let last ← less? tokens.length 1
  let token ← tokens[min cursor.position last]?
  return (.ok token, cursor.moved last)

def openGroups : Reading Nat := fun cursor =>
  some (.ok cursor.depth, cursor)

/-- Counts one more open group, where numbers end with `largest`. -/
def openGroup (largest : Nat) : Reading Unit := fun cursor =>
  (next? largest cursor.depth).bind fun depth => some (.ok (), { cursor with depth := depth })

/-- Counts one open group less. -/
def closeGroup : Reading Unit := fun cursor =>
  (less? cursor.depth 1).bind fun depth => some (.ok (), { cursor with depth := depth })

def failHere {α : Type} (tokens : List Token) (expected : Expected) : Reading α := do
  let token ← peek tokens
  throw ⟨token.offset, expected⟩

/-- Two readings one after the other: the second starts at the cursor that the first leaves, unless
there is an error. -/
theorem bind_eq {α β : Type} (m : Reading α) (f : α → Reading β) (cursor : Cursor) :
    (m >>= f) cursor = (m cursor).bind fun result =>
      match result.1 with
      | .ok value => f value result.2
      | .error e => some (.error e, result.2) := by
  show (m cursor).bind _ = _
  congr 1
  funext result
  obtain ⟨value, after⟩ := result
  cases value <;> rfl

/-- Tokens with the mark of the end behind them. -/
def ended (visible : List Token) (stop : Nat) : List Token :=
  visible ++ [⟨.eof, [], stop⟩]

/-- The same, where the mark of the end has a text. Nothing that is read depends on it. -/
def endedBy (text : Text) (visible : List Token) (stop : Nat) : List Token :=
  visible ++ [⟨.eof, text, stop⟩]

/-- The token that comes first, or the mark of the end. -/
def nextToken (text : Text) (stop : Nat) (rest : List Token) : Token :=
  rest.headD ⟨.eof, text, stop⟩

/-- Where a cursor stands when `rest` is left of the tokens. -/
def cursorAt (visible rest : List Token) (depth : Nat) : Cursor :=
  ⟨visible.length - rest.length, depth⟩

/-- The value of a reading that makes an outcome. -/
def valueOf {α : Type} (visible : List Token) (depth : Nat) :
    Outcome α → Except SyntaxError α × Cursor
  | .ok value rest => (.ok value, cursorAt visible rest depth)
  | .error fault groups rest => (.error fault, cursorAt visible rest (depth + groups))

/-- The reading `m`, started where `rest` is left of the tokens and `depth` groups are open, has a
value, and this is the outcome `o`. -/
def Makes {α : Type} (visible : List Token) (depth : Nat) (rest : List Token) (m : Reading α)
    (o : Outcome α) : Prop :=
  rest <:+ visible →
    m (cursorAt visible rest depth) = some (valueOf visible depth o) ∧ o.rest <:+ visible

section

variable {α β : Type} {visible rest rest' : List Token} {depth groups stop : Nat}
variable {m : Reading α} {f : α → Reading β} {o : Outcome α} {o' : Outcome β} {value : α}
variable {fault : SyntaxError} {text : Text}

/-- A value without reading makes a success that leaves all tokens. -/
theorem Makes.pure (value : α) : Makes visible depth rest (pure value) (.ok value rest) :=
  fun hSuffix => ⟨rfl, hSuffix⟩

theorem Makes.throw (fault : SyntaxError) :
    Makes visible depth rest (throw fault : Reading α) (.error fault 0 rest) :=
  fun hSuffix => ⟨rfl, hSuffix⟩

/-- An operation that has a value makes a success. -/
theorem Makes.attempt {checked : Checked α} (h : checked = some value) :
    Makes visible depth rest (attempt checked) (.ok value rest) := by
  rw [h]
  exact fun hSuffix => ⟨rfl, hSuffix⟩

/-- What is left is always an end of all tokens. -/
theorem Makes.of_suffix (h : rest <:+ visible → Makes visible depth rest m o) :
    Makes visible depth rest m o :=
  fun hSuffix => h hSuffix hSuffix

theorem Makes.of_eq {made : Outcome α} (hMakes : Makes visible depth rest m o) (h : o = made) :
    Makes visible depth rest m made :=
  h ▸ hMakes

/-- A reading goes on where the first part of it stopped. -/
theorem Makes.bind_ok (hFirst : Makes visible depth rest m (.ok value rest'))
    (hNext : Makes visible depth rest' (f value) o') : Makes visible depth rest (m >>= f) o' := by
  intro hSuffix
  obtain ⟨hValue, hRest⟩ := hFirst hSuffix
  rw [bind_eq, hValue]
  exact hNext hRest

/-- A reading ends with the error of the first part of it. -/
theorem Makes.bind_error (hFirst : Makes visible depth rest m (.error fault groups rest')) :
    Makes visible depth rest (m >>= f) (.error fault groups rest' : Outcome β) := by
  intro hSuffix
  obtain ⟨hValue, hRest⟩ := hFirst hSuffix
  rw [bind_eq, hValue]
  exact ⟨rfl, hRest⟩

/-- Two readings one after the other make two outcomes one after the other. -/
theorem Makes.andThen {next : α → List Token → Outcome β} (hFirst : Makes visible depth rest m o)
    (hNext : ∀ value rest', Makes visible depth rest' (f value) (next value rest')) :
    Makes visible depth rest (m >>= f) (o.andThen next) := by
  cases o with
  | ok value rest' => exact hFirst.bind_ok (hNext value rest')
  | error fault groups rest' => exact hFirst.bind_error

theorem Makes.map (g : α → β) (hFirst : Makes visible depth rest m o) :
    Makes visible depth rest (do let value ← m; return g value) (o.map g) := by
  cases o with
  | ok value rest' => exact hFirst.bind_ok (.pure (g value))
  | error fault groups rest' => exact hFirst.bind_error

/-- The position is an index of the tokens. -/
theorem getElem?_nextToken (hSuffix : rest <:+ visible) (text : Text) (stop : Nat) :
    (endedBy text visible stop)[min (visible.length - rest.length) visible.length]? =
      some (nextToken text stop rest) := by
  obtain ⟨done, rfl⟩ := hSuffix
  have hPosition :
      min ((done ++ rest).length - rest.length) (done ++ rest).length = done.length := by
    rw [List.length_append]
    omega
  rw [hPosition, endedBy, List.append_assoc, List.getElem?_append_right (Nat.le_refl _), Nat.sub_self]
  cases rest <;> rfl

/-- There is a turn for each token that is left and one more, which is what a loop needs that takes
a token in each turn but the last. -/
theorem length_lt_endedBy (hSuffix : rest <:+ visible) (text : Text) (stop : Nat) :
    rest.length < (endedBy text visible stop).length := by
  have hLength := hSuffix.length_le
  rw [endedBy, List.length_append, List.length_singleton]
  omega

theorem length_endedBy_less (text : Text) (visible : List Token) (stop : Nat) :
    less? (endedBy text visible stop).length 1 = some visible.length := by
  rw [endedBy, List.length_append, List.length_singleton, less?_add]

/-- The token at the cursor is the first of those left, or the mark of the end. -/
theorem Makes.peek :
    Makes visible depth rest (peek (endedBy text visible stop)) (.ok (nextToken text stop rest) rest) := by
  intro hSuffix
  refine ⟨?_, hSuffix⟩
  have hToken := getElem?_nextToken hSuffix text stop
  simp only [Checked.peek, length_endedBy_less, Option.bind_eq_bind, Option.bind_some]
  exact congrArg (Option.bind · _) hToken

/-- One step of the cursor takes one token off those left. -/
theorem moved_cursorAt (hSuffix : rest <:+ visible) :
    (cursorAt visible rest depth).moved visible.length = cursorAt visible rest.tail depth := by
  have hLength := hSuffix.length_le
  cases rest with
  | nil => exact if_neg (Nat.lt_irrefl _)
  | cons token rest =>
    rw [List.length_cons] at hLength
    have hMove : (cursorAt visible (token :: rest) depth).position < visible.length := by
      simp only [cursorAt, List.length_cons]
      omega
    have hNext : (cursorAt visible (token :: rest) depth).position + 1 =
        visible.length - rest.length := by
      simp only [cursorAt, List.length_cons]
      omega
    rw [Cursor.moved, if_pos hMove, hNext]
    rfl

/-- Reading one token leaves the others. Behind the last one the cursor stays. -/
theorem Makes.advance :
    Makes visible depth rest (advance (endedBy text visible stop))
      (.ok (nextToken text stop rest) rest.tail) := by
  intro hSuffix
  refine ⟨?_, (List.tail_suffix rest).trans hSuffix⟩
  have hToken := getElem?_nextToken hSuffix text stop
  simp only [Checked.advance, length_endedBy_less, Option.bind_eq_bind, Option.bind_some,
    moved_cursorAt hSuffix]
  exact congrArg (Option.bind · _) hToken

theorem Makes.peek_nil :
    Makes visible depth [] (Checked.peek (endedBy text visible stop)) (.ok ⟨.eof, text, stop⟩ []) :=
  Makes.peek

theorem Makes.peek_cons {token : Token} :
    Makes visible depth (token :: rest) (Checked.peek (endedBy text visible stop))
      (.ok token (token :: rest)) :=
  Makes.peek

theorem Makes.advance_cons {token : Token} :
    Makes visible depth (token :: rest) (Checked.advance (endedBy text visible stop)) (.ok token rest) :=
  Makes.advance

/-- An error at the cursor is one at the next token, and reads nothing. -/
theorem Makes.failHere (s : Setting) (expected : Expected) :
    Makes visible depth rest (failHere (endedBy text visible s.stop) expected)
      (Parser.fail s expected rest : Outcome α) := by
  refine Makes.peek.bind_ok ?_
  have hOffset : (nextToken text s.stop rest).offset = Parser.nextOffset s rest := by cases rest <;> rfl
  rw [hOffset]
  exact .throw _

theorem Makes.openGroups : Makes visible depth rest openGroups (.ok depth rest) :=
  fun hSuffix => ⟨rfl, hSuffix⟩

/-- Inside a group one more is open. A success closes it again, a failure leaves it open. -/
theorem Makes.inGroup {next : α → Reading β} {after : α → List Token → Outcome β}
    {largest : Nat} (hDepth : depth < largest) (hInner : Makes visible (depth + 1) rest m o)
    (hNext : ∀ value rest', Makes visible depth rest' (next value) (after value rest')) :
    Makes visible depth rest
      (do
        openGroup largest
        let value ← m
        closeGroup
        next value)
      (o.inGroup.andThen after) := by
  intro hSuffix
  obtain ⟨hValue, hRest⟩ := hInner hSuffix
  have hOpen : openGroup largest (cursorAt visible rest depth) =
      some (.ok (), cursorAt visible rest (depth + 1)) := by
    have hCount : next? largest (cursorAt visible rest depth).depth = some (depth + 1) :=
      if_pos hDepth
    rw [openGroup, hCount]
    rfl
  rw [bind_eq, hOpen, Option.bind_some]
  dsimp only
  rw [bind_eq, hValue, Option.bind_some]
  cases o with
  | ok value rest' =>
    have hClose : closeGroup (cursorAt visible rest' (depth + 1)) =
        some (.ok (), cursorAt visible rest' depth) := by
      have hCount : less? (cursorAt visible rest' (depth + 1)).depth 1 = some depth :=
        less?_add depth 1
      rw [closeGroup, hCount]
      rfl
    simp only [valueOf]
    rw [bind_eq, hClose]
    exact hNext value rest' hRest
  | error fault groups rest' =>
    have hGroups : depth + 1 + groups = depth + (groups + 1) := by omega
    simp only [valueOf, hGroups]
    exact ⟨rfl, hRest⟩

end

end SelectorXPath.Checked
