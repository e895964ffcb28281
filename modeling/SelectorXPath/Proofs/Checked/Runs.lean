import SelectorXPath.Proofs.Checked.Reading

/-!
# Where readings move the cursor

The operations that a reading is made of move the cursor one token on, or count an open group more
or less. A run of a reading lists the places where the cursor has been put, whether the reading ends
with a value or with an error, and it fetches tokens at an index that they have only. Such a path
does not leave the tokens and does not go back, whatever the reading; how deep it goes depends on
the reading.

A loop does its body until this says to leave. If the body moves the cursor on whenever it says to
go on, a turn for each token that is left is enough.
-/

namespace SelectorXPath.Checked

/-- One move of the cursor. -/
inductive Move (tokens : List Token) : Cursor → Cursor → Prop where
  | advance (c : Cursor) : Move tokens c (c.moved (tokens.length - 1))
  | openGroup (position depth : Nat) : Move tokens ⟨position, depth⟩ ⟨position, depth + 1⟩
  | closeGroup (position depth : Nat) : Move tokens ⟨position, depth + 1⟩ ⟨position, depth⟩

/-- The places where moves put the cursor, one after the other, up to the last one. -/
inductive Path (tokens : List Token) : Cursor → List Cursor → Cursor → Prop where
  | nil (c : Cursor) : Path tokens c [] c
  | cons {c d e : Cursor} {path : List Cursor} (hMove : Move tokens c d)
      (hPath : Path tokens d path e) : Path tokens c (d :: path) e

def look {α : Type} (f : Cursor → α) : Reading α := fun cursor =>
  some (.ok (f cursor), cursor)

theorem openGroups_eq_look : openGroups = look Cursor.depth :=
  rfl

/-- The reading, started at a cursor, moves it along a path and ends. The run follows the operations
that the reading is put together from. -/
inductive Run (tokens : List Token) :
    {α : Type} → Reading α → Cursor → List Cursor → Except SyntaxError α → Cursor → Prop where
  | pure {α : Type} (value : α) (c : Cursor) : Run tokens (pure value) c [] (.ok value) c
  | throw {α : Type} (fault : SyntaxError) (c : Cursor) :
      Run tokens (throw fault : Reading α) c [] (.error fault) c
  | attempt {α : Type} {checked : Checked α} {value : α} (h : checked = some value) (c : Cursor) :
      Run tokens (attempt checked) c [] (.ok value) c
  | peek {c : Cursor} {token : Token} (hToken : tokens[c.position]? = some token) :
      Run tokens (peek tokens) c [] (.ok token) c
  | advance {c : Cursor} {token : Token} (hToken : tokens[c.position]? = some token) :
      Run tokens (advance tokens) c [c.moved (tokens.length - 1)] (.ok token)
        (c.moved (tokens.length - 1))
  | look {α : Type} (f : Cursor → α) (c : Cursor) : Run tokens (look f) c [] (.ok (f c)) c
  | openGroup {largest position depth : Nat} (hDepth : depth < largest) :
      Run tokens (openGroup largest) ⟨position, depth⟩ [⟨position, depth + 1⟩] (.ok ())
        ⟨position, depth + 1⟩
  | closeGroup (position depth : Nat) :
      Run tokens closeGroup ⟨position, depth + 1⟩ [⟨position, depth⟩] (.ok ()) ⟨position, depth⟩
  | bind_ok {α β : Type} {m : Reading α} {f : α → Reading β} {c d e : Cursor}
      {first second : List Cursor} {value : α} {result : Except SyntaxError β}
      (hFirst : Run tokens m c first (.ok value) d) (hSecond : Run tokens (f value) d second result e) :
      Run tokens (m >>= f) c (first ++ second) result e
  | bind_error {α β : Type} {m : Reading α} {f : α → Reading β} {c d : Cursor} {path : List Cursor}
      {fault : SyntaxError} (hFirst : Run tokens m c path (.error fault) d) :
      Run tokens (m >>= f) c path (.error fault) d

section

variable {tokens : List Token} {c d e : Cursor} {first second places : List Cursor}
variable {α β : Type} {m : Reading α} {result : Except SyntaxError α}

/-- Moving to another token opens and closes no group. -/
theorem Cursor.moved_depth (c : Cursor) (last : Nat) : (c.moved last).depth = c.depth := by
  unfold Cursor.moved
  split <;> rfl

/-- The cursor moves on where it does not stand at the last token. -/
theorem Cursor.moved_position (c : Cursor) (last : Nat) :
    (c.moved last).position = c.position + if c.position < last then 1 else 0 := by
  unfold Cursor.moved
  split <;> rfl

/-- No move goes back. -/
theorem Move.position_le (h : Move tokens c d) : c.position ≤ d.position := by
  cases h with
  | advance =>
    rw [Cursor.moved_position]
    exact Nat.le_add_right _ _
  | openGroup position depth => exact Nat.le_refl _
  | closeGroup position depth => exact Nat.le_refl _

/-- No move leaves the tokens. -/
theorem Move.position_lt (h : Move tokens c d) (hInside : c.position < tokens.length) :
    d.position < tokens.length := by
  cases h with
  | advance =>
    rw [Cursor.moved_position]
    split <;> omega
  | openGroup position depth => exact hInside
  | closeGroup position depth => exact hInside

/-- Two paths of which the second begins where the first ends are one. -/
theorem Path.append (hFirst : Path tokens c first d) (hSecond : Path tokens d second e) :
    Path tokens c (first ++ second) e := by
  induction hFirst with
  | nil => exact hSecond
  | cons hMove _ ih => exact .cons hMove (ih hSecond)

/-- No path leaves the tokens. -/
theorem Path.position_lt (h : Path tokens c places d) (hInside : c.position < tokens.length) :
    ∀ place ∈ c :: places, place.position < tokens.length := by
  induction h with
  | nil => exact List.forall_mem_singleton.mpr hInside
  | cons hMove _ ih => exact List.forall_mem_cons.mpr ⟨hInside, ih (hMove.position_lt hInside)⟩

/-- A path does not go back. -/
theorem Path.pairwise (h : Path tokens c places d) :
    (c :: places).Pairwise fun earlier later => earlier.position ≤ later.position := by
  induction h with
  | nil => exact List.pairwise_singleton _ _
  | cons hMove _ ih =>
    refine List.pairwise_cons.mpr ⟨fun place hPlace => ?_, ih⟩
    obtain rfl | hLater := List.mem_cons.mp hPlace
    · exact hMove.position_le
    · exact Nat.le_trans hMove.position_le ((List.pairwise_cons.mp ih).1 place hLater)

/-- The cursor ends at one of the places on its path. -/
theorem Path.end_mem (h : Path tokens c places d) : d ∈ c :: places := by
  induction h with
  | nil => exact List.mem_singleton_self _
  | cons _ _ ih => exact List.mem_cons_of_mem _ ih

/-- What a run ends with is the value of the reading. -/
theorem Run.value_eq (h : Run tokens m c places result d) : m c = some (result, d) := by
  -- a cursor with a token does not stand behind the last one
  have hLess {token : Token} {position : Nat} (hToken : tokens[position]? = some token) :
      less? tokens.length 1 = some (tokens.length - 1) ∧
        min position (tokens.length - 1) = position := by
    obtain ⟨hPosition, -⟩ := List.getElem?_eq_some_iff.mp hToken
    exact ⟨if_pos (by omega), by omega⟩
  induction h with
  | pure value c => rfl
  | throw fault c => rfl
  | attempt hChecked c => rw [Checked.attempt, hChecked, Option.bind_some]
  | peek hToken =>
    obtain ⟨hLast, hPosition⟩ := hLess hToken
    simp only [Checked.peek, hLast, Option.bind_eq_bind, Option.bind_some, hPosition, hToken]
    rfl
  | advance hToken =>
    obtain ⟨hLast, hPosition⟩ := hLess hToken
    simp only [Checked.advance, hLast, Option.bind_eq_bind, Option.bind_some, hPosition, hToken]
    rfl
  | look f c => rfl
  | openGroup hDepth =>
    rw [Checked.openGroup, next?, if_pos hDepth, Option.bind_some]
  | closeGroup position depth =>
    rw [Checked.closeGroup, less?_add, Option.bind_some]
  | bind_ok _ _ ihFirst ihSecond =>
    rw [bind_eq, ihFirst]
    exact ihSecond
  | bind_error _ ih =>
    rw [bind_eq, ih]
    rfl

/-- A run moves the cursor step by step. -/
theorem Run.path (h : Run tokens m c places result d) : Path tokens c places d := by
  induction h with
  | pure value c => exact .nil c
  | throw fault c => exact .nil c
  | attempt h c => exact .nil c
  | peek hToken => exact .nil _
  | advance hToken => exact .cons (.advance _) (.nil _)
  | look f c => exact .nil c
  | openGroup hDepth => exact .cons (.openGroup _ _) (.nil _)
  | closeGroup position depth => exact .cons (.closeGroup _ _) (.nil _)
  | bind_ok _ _ ihFirst ihSecond => exact ihFirst.append ihSecond
  | bind_error _ ih => exact ih

/-- The reading has a run on which at most `limit` groups are open. If it ends with a value, `post`
holds of the value and of the cursor behind. -/
def Ends (tokens : List Token) (limit : Nat) (m : Reading α) (c : Cursor)
    (post : α → Cursor → Prop) : Prop :=
  ∃ path result d, Run tokens m c path result d ∧ (∀ place ∈ path, place.depth ≤ limit) ∧
    ∀ value, result = .ok value → post value d

/-- The cursor stands at one of the tokens, at the index `least` or behind, with `depth` groups
open, which are not too many. -/
structure Stands (tokens : List Token) (limit depth least : Nat) (c : Cursor) : Prop where
  position_lt : c.position < tokens.length
  least_le : least ≤ c.position
  depth_eq : c.depth = depth
  depth_le : depth ≤ limit

variable {limit depth least : Nat} {f : α → Reading β} {post : α → Cursor → Prop}
variable {post' : β → Cursor → Prop} {token : Token}

/-- A cursor that stands far enough stands far enough for a smaller index. -/
theorem Stands.weaken {smaller : Nat} (h : Stands tokens limit depth least c)
    (hSmaller : smaller ≤ least) : Stands tokens limit depth smaller c :=
  { h with least_le := Nat.le_trans hSmaller h.least_le }

theorem Stands.here (h : Stands tokens limit depth least c) :
    Stands tokens limit depth c.position c :=
  { h with least_le := Nat.le_refl _ }

/-- Behind where the cursor stands it has passed all the more what it has passed already. -/
theorem Stands.beyond (h : Stands tokens limit depth least c)
    (hMoved : Stands tokens limit depth (c.position + 1) d) :
    Stands tokens limit depth (least + 1) d :=
  hMoved.weaken (Nat.succ_le_succ h.least_le)

/-- Where the cursor stands, no more groups are open than may be. -/
theorem Stands.within (h : Stands tokens limit depth least c) : ∀ place ∈ [c], place.depth ≤ limit :=
  List.forall_mem_singleton.mpr (h.depth_eq ▸ h.depth_le)

/-- There is a token at the cursor. -/
theorem Stands.exists_token (h : Stands tokens limit depth least c) :
    ∃ token, tokens[c.position]? = some token :=
  ⟨_, List.getElem?_eq_getElem h.position_lt⟩

/-- A value ends a run at once. -/
theorem Ends.pure {value : α} (hPost : post value c) :
    Ends tokens limit (Pure.pure value) c post := by
  refine ⟨[], .ok value, c, .pure value c, nofun, ?_⟩
  rintro _ ⟨⟩
  exact hPost

/-- An error ends a run at once, and nothing has to hold behind it. -/
theorem Ends.throw (fault : SyntaxError) : Ends tokens limit (throw fault) c post :=
  ⟨[], .error fault, c, .throw fault c, nofun, nofun⟩

theorem Ends.attempt {checked : Checked α} {value : α} (hChecked : checked = some value)
    (hPost : post value c) : Ends tokens limit (attempt checked) c post := by
  refine ⟨[], .ok value, c, .attempt hChecked c, nofun, ?_⟩
  rintro _ ⟨⟩
  exact hPost

/-- What holds at the end of a run can be weakened. -/
theorem Ends.mono {stronger : α → Cursor → Prop} (h : Ends tokens limit m c stronger)
    (hPost : ∀ value d, stronger value d → post value d) : Ends tokens limit m c post := by
  obtain ⟨path, result, d, hRun, hDepth, hStronger⟩ := h
  exact ⟨path, result, d, hRun, hDepth, fun value hResult => hPost value d (hStronger value hResult)⟩

/-- A reading ends if the rest of it does, where the run of the first part stops. -/
theorem Ends.of_run {path : List Cursor} {value : α} (hRun : Run tokens m c path (.ok value) d)
    (hDepth : ∀ place ∈ path, place.depth ≤ limit) (hNext : Ends tokens limit (f value) d post') :
    Ends tokens limit (m >>= f) c post' := by
  obtain ⟨path', result, e, hRun', hDepth', hPost⟩ := hNext
  refine ⟨path ++ path', result, e, hRun.bind_ok hRun', fun place hPlace => ?_, hPost⟩
  exact (List.mem_append.mp hPlace).elim (hDepth place) (hDepth' place)

/-- The run of two readings is that of the first, and that of the second from where the first
ends. -/
theorem Ends.bind (hFirst : Ends tokens limit m c post)
    (hNext : ∀ value d, post value d → Ends tokens limit (f value) d post') :
    Ends tokens limit (m >>= f) c post' := by
  obtain ⟨path, result, d, hRun, hDepth, hPost⟩ := hFirst
  cases result with
  | error fault => exact ⟨path, .error fault, d, hRun.bind_error, hDepth, nofun⟩
  | ok value => exact .of_run hRun hDepth (hNext value d (hPost value rfl))

theorem Ends.of_attempt {checked : Checked α} {value : α} (hChecked : checked = some value)
    (hNext : Ends tokens limit (f value) c post') :
    Ends tokens limit (Checked.attempt checked >>= f) c post' :=
  .of_run (.attempt hChecked c) nofun hNext

theorem Ends.of_look {look : Cursor → α} (hNext : Ends tokens limit (f (look c)) c post') :
    Ends tokens limit (Checked.look look >>= f) c post' :=
  .of_run (.look look c) nofun hNext

/-- The last of the tokens is a mark of the end. -/
def Marked (tokens : List Token) : Prop :=
  ∃ mark, tokens.getLast? = some mark ∧ mark.kind = .eof

/-- A token that is no mark of the end is not the last one. -/
theorem Marked.lt_of_kind (hMarked : Marked tokens) {position : Nat}
    (hToken : tokens[position]? = some token) (hKind : token.kind ≠ .eof) :
    position < tokens.length - 1 := by
  obtain ⟨mark, hMark, hEof⟩ := hMarked
  obtain ⟨hPosition, -⟩ := List.getElem?_eq_some_iff.mp hToken
  refine Nat.lt_of_le_of_ne (Nat.le_sub_one_of_lt hPosition) fun hLast => ?_
  rw [List.getLast?_eq_getElem?, ← hLast, hToken] at hMark
  exact hKind (Option.some.inj hMark ▸ hEof)

/-- Looking at the token at the cursor does not move it. -/
theorem Ends.of_peek {f : Token → Reading β} (h : Stands tokens limit depth least c)
    (hNext : ∀ token, tokens[c.position]? = some token → Ends tokens limit (f token) c post') :
    Ends tokens limit (peek tokens >>= f) c post' := by
  obtain ⟨token, hToken⟩ := h.exists_token
  exact .of_run (.peek hToken) nofun (hNext token hToken)

/-- The cursor moves on, but not behind a mark of the end. -/
theorem Ends.of_advance {f : Token → Reading β} (hMarked : Marked tokens)
    (h : Stands tokens limit depth least c)
    (hNext : ∀ token d, tokens[c.position]? = some token → Stands tokens limit depth least d →
      (token.kind ≠ .eof → Stands tokens limit depth (least + 1) d) →
        Ends tokens limit (f token) d post') :
    Ends tokens limit (advance tokens >>= f) c post' := by
  obtain ⟨token, hToken⟩ := h.exists_token
  have hMove : Move tokens c (c.moved (tokens.length - 1)) := .advance c
  have hStands : Stands tokens limit depth least (c.moved (tokens.length - 1)) :=
    ⟨hMove.position_lt h.position_lt, Nat.le_trans h.least_le hMove.position_le,
      (c.moved_depth _).trans h.depth_eq, h.depth_le⟩
  refine .of_run (.advance hToken) hStands.within (hNext token _ hToken hStands fun hKind => ?_)
  refine { hStands with least_le := ?_ }
  rw [Cursor.moved_position, if_pos (hMarked.lt_of_kind hToken hKind)]
  exact Nat.succ_le_succ h.least_le

/-- The cursor moves on behind a token that has been looked at and is no mark of the end. -/
theorem Ends.of_advance_of_kind {f : Token → Reading β} (hMarked : Marked tokens)
    (h : Stands tokens limit depth least c) (hToken : tokens[c.position]? = some token)
    (hKind : token.kind ≠ .eof)
    (hNext : ∀ d, Stands tokens limit depth (least + 1) d → Ends tokens limit (f token) d post') :
    Ends tokens limit (advance tokens >>= f) c post' := by
  refine .of_advance hMarked h fun found d hFound _ hMoved => ?_
  obtain rfl : found = token := Option.some.inj (hFound.symm.trans hToken)
  exact hNext d (hMoved hKind)

theorem Ends.failHere {expected : Expected} (h : Stands tokens limit depth least c) :
    Ends tokens limit (failHere tokens expected) c post :=
  .of_peek h fun _ _ => .throw _

/-- Inside a group one more is open, and a success closes it again. -/
theorem Ends.inGroup {largest : Nat} (h : Stands tokens limit depth least c) (hDepth : depth < limit)
    (hLargest : limit ≤ largest)
    (hInner : ∀ d, Stands tokens limit (depth + 1) least d →
      Ends tokens limit m d fun _ => Stands tokens limit (depth + 1) least)
    (hNext : ∀ value d, Stands tokens limit depth least d → Ends tokens limit (f value) d post') :
    Ends tokens limit
      (do
        openGroup largest
        let value ← m
        closeGroup
        f value) c post' := by
  obtain ⟨position, groups⟩ := c
  obtain ⟨hInside, hLeast, rfl, hWithin⟩ := h
  have hOpen : Stands tokens limit (groups + 1) least ⟨position, groups + 1⟩ :=
    ⟨hInside, hLeast, rfl, hDepth⟩
  refine .of_run (.openGroup (Nat.lt_of_lt_of_le hDepth hLargest)) hOpen.within ?_
  refine (hInner _ hOpen).bind fun value d hRead => ?_
  obtain ⟨position, inner⟩ := d
  obtain ⟨hInside, hLeast, rfl, -⟩ := hRead
  have hClosed : Stands tokens limit groups least ⟨position, groups⟩ :=
    ⟨hInside, hLeast, rfl, hWithin⟩
  exact .of_run (.closeGroup position groups) hClosed.within (hNext value _ hClosed)

inductive Turn (σ α : Type) where
  | again (state : σ)
  | leave (value : α)

/-- A loop that goes on as long as its body says so. -/
def repeated {σ : Type} (body : σ → Reading (Turn σ α)) : (turns : Nat) → σ → Reading α
  | 0, _ => Checked.attempt none
  | turns + 1, state => do
    let turn ← body state
    match turn with
    | .again state => repeated body turns state
    | .leave value => return value

/-- The turn keeps to `inv` and moves the cursor on, or it leaves the loop with `post`. -/
def Turn.Advances {σ : Type} (inv : σ → Cursor → Prop) (post : α → Cursor → Prop) (c : Cursor) :
    Turn σ α → Cursor → Prop
  | .again state, d => inv state d ∧ c.position < d.position
  | .leave value, d => post value d

/-- A turn of a loop that keeps nothing but where the cursor stands. -/
theorem Stands.again {σ : Type} {state : σ} (h : Stands tokens limit depth least c)
    (hMoved : Stands tokens limit depth (c.position + 1) d) :
    Turn.Advances (fun _ => Stands tokens limit depth least) post c (.again state) d :=
  ⟨(h.beyond hMoved).weaken (Nat.le_succ least), hMoved.least_le⟩

/-- Each turn moves the cursor to a later token, so the tokens that are left bound the turns. -/
theorem Ends.repeated {σ : Type} {body : σ → Reading (Turn σ α)} (inv : σ → Cursor → Prop)
    (hInv : ∀ state c, inv state c → c.position < tokens.length)
    (hBody : ∀ state c, inv state c → Ends tokens limit (body state) c (Turn.Advances inv post c))
    {turns : Nat} {state : σ} (h : inv state c) (hTurns : tokens.length ≤ c.position + turns) :
    Ends tokens limit (repeated body turns state) c post := by
  induction turns generalizing state c with
  | zero =>
    have hInside := hInv state c h
    omega
  | succ turns ih =>
    refine (hBody state c h).bind fun turn d hTurn => ?_
    cases turn with
    | again state =>
      obtain ⟨hKept, hMoved⟩ := hTurn
      exact ih hKept (by omega)
    | leave value => exact .pure hTurn

end

end SelectorXPath.Checked
