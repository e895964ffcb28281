import SelectorXPath.Proofs.Checked.Groups
import SelectorXPath.Proofs.Selector.Reuse

/-!
# Calls of a reader

A reader may be made of any tokens, and it may be asked for a list as often as one likes. The cursor
stands where the last call has left it. Each call ends: the loops go on at later tokens only, and the
groups inside of a list or of a group start at later tokens than these.
-/

namespace SelectorXPath.Checked

open SelectorXPath.Text

/-- The loop repeats its body. At whichever token a turn is taken, it comes to an end, and if the
loop goes on, then at a later token. -/
structure Loop {σ α : Type} (tokens : List Token) (limit depth : Nat) (loop : Nat → Reading α)
    (body : σ → Reading (Turn σ α)) (start : σ) : Prop where
  eq_repeated : ∀ turns, loop turns = repeated body turns start
  turn_ends : ∀ state c, Stands tokens limit depth 0 c → ∃ result d,
    body state c = some (result, d) ∧
      ∀ state', result = .ok (.again state') → c.position < d.position

/-- All the loops, where `depth` groups are open and more are read by `group`. -/
structure Loops (tokens : List Token) (limit depth : Nat) (group : Token → Reading SelectorList) :
    Prop where
  whiteSpace : Loop tokens limit depth (blanks tokens) (blank tokens) false
  string : ∀ mark done, Loop tokens limit depth (fun turns => stringText tokens mark turns done)
    (stringPiece tokens mark) done
  positions : ∀ done, Loop tokens limit depth (fun turns => positionsText tokens turns done)
    (positionsPiece tokens) done
  compound : Loop tokens limit depth (parts group tokens) (nextPart tokens group) []
  chain : ∀ left, Loop tokens limit depth (fun turns => chain group tokens turns left)
    (nextCompound tokens group) left
  list : ∀ close, Loop tokens limit depth (list group tokens close)
    (nextSelector tokens group close) []

/-- Why calls end, at whatever depth: the loops go on at later tokens, and a list and a group have
the same value where the groups inside of them cannot be read at the token that they start at or in
front of it. -/
structure MovesOn (tokens : List Token) (limit : DepthLimit) : Prop where
  loops : ∀ depth turns, limit.value < depth + turns →
    Loops tokens limit.value depth (group limit tokens turns)
  list_behind : ∀ depth turns close c, limit.value < depth + turns →
    Stands tokens limit.value depth 0 c → ∃ value,
      list (group limit tokens turns) tokens close tokens.length c = some value ∧
        list (behind c.position (group limit tokens turns)) tokens close tokens.length c = some value
  group_behind : ∀ depth turns token c, limit.value < depth + 1 + turns →
    Stands tokens limit.value depth 0 c → ∃ value,
      group limit tokens (turns + 1) token c = some value ∧
        nested limit tokens (behind c.position (group limit tokens turns)) token c = some value

section

variable {tokens : List Token} {limit depth : Nat} {c : Cursor}
variable {group : Token → Reading SelectorList}

/-- A turn that keeps to an invariant comes to an end, and goes on at a later token if it goes on at
all. -/
theorem Ends.turn {σ α : Type} {m : Reading (Turn σ α)} {inv : σ → Cursor → Prop}
    {post : α → Cursor → Prop} (h : Ends tokens limit m c (Turn.Advances inv post c)) :
    ∃ result d, m c = some (result, d) ∧
      ∀ state, result = .ok (.again state) → c.position < d.position := by
  obtain ⟨path, result, d, hRun, -, hTurn⟩ := h
  exact ⟨result, d, hRun.value_eq, fun state hAgain => (hTurn _ hAgain).2⟩

/-- Every loop of the grammar advances, if the groups inside of it end. -/
theorem loops_advance (hMarked : Marked tokens) (hCuttable : Cuttable tokens)
    (hGroups : GroupsEnd tokens limit depth 0 group) : Loops tokens limit depth group where
  whiteSpace := ⟨blanks_eq_repeated tokens, fun spaced _ h => (Ends.blank hMarked spaced h).turn⟩
  string mark done := ⟨fun turns => stringText_eq_repeated tokens turns mark done,
    fun done _ h => (Ends.stringPiece hMarked hCuttable mark done h).turn⟩
  positions done := ⟨fun turns => positionsText_eq_repeated tokens turns done,
    fun done _ h => (Ends.positionsPiece hMarked done h).turn⟩
  compound := ⟨parts_eq_repeated tokens group,
    fun done _ h => (Ends.nextPart hMarked hCuttable hGroups done h (Nat.le_refl 0)).turn⟩
  chain left := ⟨fun turns => chain_eq_repeated tokens group turns left,
    fun left _ h => (Ends.nextCompound hMarked hCuttable hGroups left h (Nat.le_refl 0)).turn⟩
  list close := ⟨fun turns => list_eq_repeated tokens group turns close,
    fun done _ h => (Ends.nextSelector hMarked hCuttable hGroups close done h (Nat.le_refl 0)).turn⟩

end

/-- At any depth the loops advance and the groups end, by induction on how many more groups may be
opened. -/
theorem movesOn {tokens : List Token} (hMarked : Marked tokens) (hCuttable : Cuttable tokens)
    (limit : DepthLimit) : MovesOn tokens limit where
  loops depth _ hTurns :=
    loops_advance hMarked hCuttable (groupsEnd hMarked hCuttable limit depth 0 (Or.inl hTurns))
  list_behind depth _ close c hTurns h :=
    Checked.list_behind hMarked hCuttable h
      (groupsEnd hMarked hCuttable limit depth c.position (Or.inl hTurns)) close
  group_behind depth _ token c hTurns h :=
    nested_behind hMarked hCuttable h
      (groupsEnd hMarked hCuttable limit (depth + 1) c.position (Or.inl hTurns)) token

/-- Reads a list up to a mark of the end. -/
def call (limit : DepthLimit) (tokens : List Token) : Reading SelectorList :=
  list (group limit tokens (limit.value + 1)) tokens .eof tokens.length

/-- Where the cursor stands when a reader that was `first` has become `r`. -/
def cursorOf (first r : TokenReader) : Cursor :=
  cursorAt first.tokens r.tokens r.depth

/-- A call that moves the cursor along a path from `c` to `d`. The cursor stays at the tokens, it
does not go back, and no more groups are open than may be. After a success it stands at a mark of
the end, and as many groups are open as before. -/
structure CallRuns (tokens : List Token) (limit : DepthLimit) (c : Cursor) (path : List Cursor)
    (result : Except SyntaxError SelectorList) (d : Cursor) : Prop where
  run : Run tokens (call limit tokens) c path result d
  value_eq : call limit tokens c = some (result, d)
  position_lt : ∀ place ∈ c :: path, place.position < tokens.length
  forward : (c :: path).Pairwise fun earlier later => earlier.position ≤ later.position
  depth_le : ∀ place ∈ c :: path, place.depth ≤ limit.value
  of_ok : ∀ list, result = .ok list →
    d.depth = c.depth ∧ ∃ token, tokens[d.position]? = some token ∧ token.kind = .eof

section

variable {tokens : List Token} {limit : DepthLimit}

/-- The tokens that a reader is made of, with a mark of the end behind them. -/
theorem keptTokens_eq (tokens : List Token) (limit : Nat) :
    ∃ text, keptTokens tokens =
      endedBy text (TokenReader.start limit tokens).tokens
        (TokenReader.start limit tokens).setting.stop := by
  show ∃ text, keptTokens tokens = endedBy text
    (TokenReader.withoutEnd (Mode.uncommented tokens)) (TokenReader.stopOf (Mode.uncommented tokens))
  simp only [keptTokens, TokenReader.withoutEnd, TokenReader.stopOf]
  cases hLast : (Mode.uncommented tokens).getLast? with
  | none => exact ⟨[], rfl⟩
  | some token =>
    obtain ⟨kind, text, offset⟩ := token
    by_cases hKind : kind = .eof
    · obtain ⟨front, hFront⟩ := List.getLast?_eq_some_iff.mp hLast
      refine ⟨text, ?_⟩
      simp only [hKind, if_true, hFront, List.dropLast_concat, endedBy]
    · refine ⟨[], ?_⟩
      simp only [hKind, if_false]
      rfl

/-- The tokens that are kept end with a mark of the end, whatever the tokens are. -/
theorem marked_keptTokens (tokens : List Token) : Marked (keptTokens tokens) := by
  obtain ⟨text, hKept⟩ := keptTokens_eq tokens 0
  rw [hKept]
  exact ⟨_, List.getLast?_concat .., rfl⟩

theorem mem_of_mem_start {token : Token} {limit : Nat}
    (h : token ∈ (TokenReader.start limit tokens).tokens) : token ∈ tokens := by
  have hVisible : token ∈ TokenReader.withoutEnd (Mode.uncommented tokens) := h
  unfold TokenReader.withoutEnd at hVisible
  split at hVisible
  · cases hVisible
  · split at hVisible
    · exact List.mem_of_mem_filter ((List.dropLast_sublist _).subset hVisible)
    · exact List.mem_of_mem_filter hVisible

/-- A mark of the end is not cut, so it may have any text. -/
theorem Cuttable.keptTokens (h : Cuttable tokens) : Cuttable (keptTokens tokens) := by
  obtain ⟨text, hKept⟩ := keptTokens_eq tokens 0
  rw [hKept]
  intro token hToken
  obtain hVisible | hMark := List.mem_append.mp hToken
  · exact h token (mem_of_mem_start hVisible)
  · rw [List.mem_singleton.mp hMark]
    nofun

/-- A reader that has come from `first` by some calls. -/
structure LeftBy (limit : DepthLimit) (first r : TokenReader) : Prop where
  suffix : r.tokens <:+ first.tokens
  setting_eq : r.setting = first.setting
  depth_le : r.depth ≤ limit.value

/-- A reader that has not been called stands where it started. -/
theorem LeftBy.start (limit : DepthLimit) (tokens : List Token) :
    LeftBy limit (TokenReader.start limit.value tokens) (TokenReader.start limit.value tokens) :=
  ⟨List.suffix_refl _, rfl, Nat.zero_le _⟩

variable {first r : TokenReader}

/-- The reader stands at one of the tokens that are kept. -/
theorem LeftBy.stands (h : LeftBy limit (TokenReader.start limit.value tokens) r) :
    Stands (keptTokens tokens) limit.value r.depth 0
      (cursorOf (TokenReader.start limit.value tokens) r) := by
  obtain ⟨text, hKept⟩ := keptTokens_eq tokens limit.value
  refine ⟨?_, Nat.zero_le _, rfl, h.depth_le⟩
  rw [hKept, endedBy, List.length_append, List.length_singleton]
  exact Nat.lt_succ_of_le (Nat.sub_le _ _)

/-- What a call makes of the tokens, with the cursor where the reader says it is. -/
theorem valueOf_outcome (first r : TokenReader) :
    valueOf first.tokens r.depth r.outcome = (r.next.1, cursorOf first r.next.2) := by
  unfold TokenReader.next
  cases r.outcome <;> rfl

/-- A call has the value that the reader gives, and leaves the cursor where this stands then. -/
theorem LeftBy.call_eq (h : LeftBy limit (TokenReader.start limit.value tokens) r)
    (hCuttable : Cuttable tokens) :
    call limit (keptTokens tokens) (cursorOf (TokenReader.start limit.value tokens) r) =
        some (r.next.1, cursorOf (TokenReader.start limit.value tokens) r.next.2) ∧
      r.next.2.tokens <:+ (TokenReader.start limit.value tokens).tokens := by
  obtain ⟨text, hKept⟩ := keptTokens_eq tokens limit.value
  have hVisible : Cuttable (TokenReader.start limit.value tokens).tokens := fun token hToken =>
    hCuttable token (mem_of_mem_start hToken)
  have hLimit : r.setting.limit = limit.value := congrArg Setting.limit h.setting_eq
  rw [← h.setting_eq] at hKept
  generalize TokenReader.start limit.value tokens = first at h hKept hVisible ⊢
  have hGroups : MakesGroups first.tokens r.depth
      (group limit (endedBy text first.tokens r.setting.stop) (limit.value + 1))
      (Parser.groups r.setting (r.setting.limit - r.depth)) :=
    makesGroups r.setting hVisible hLimit _ r.depth _ (by rw [hLimit]) (by omega)
  have hTurns := length_lt_endedBy h.suffix text r.setting.stop
  obtain ⟨hValue, hSuffix⟩ := Makes.list r.setting hVisible hGroups .eof hTurns h.suffix
  rw [hKept]
  refine ⟨hValue.trans (congrArg some (valueOf_outcome first r)), ?_⟩
  have hRest : r.next.2.tokens = r.outcome.rest := by
    unfold TokenReader.next
    cases r.outcome <;> rfl
  rw [hRest]
  exact hSuffix

/-- One more call. -/
theorem LeftBy.callRuns (h : LeftBy limit (TokenReader.start limit.value tokens) r)
    (hCuttable : Cuttable tokens) :
    ∃ path, CallRuns (keptTokens tokens) limit (cursorOf (TokenReader.start limit.value tokens) r) path
      r.next.1 (cursorOf (TokenReader.start limit.value tokens) r.next.2) := by
  obtain ⟨hValue, -⟩ := h.call_eq hCuttable
  have hMarked := marked_keptTokens tokens
  have hStands := h.stands
  have hGroups : GroupsEnd (keptTokens tokens) limit.value r.depth 0
      (group limit (keptTokens tokens) (limit.value + 1)) :=
    groupsEnd hMarked hCuttable.keptTokens limit r.depth 0 (Or.inl (by omega))
  obtain ⟨path, result, d, hRun, hDepth, hOk⟩ :=
    Ends.list hMarked hCuttable.keptTokens hGroups .eof hStands (Nat.le_refl 0)
  obtain ⟨rfl, rfl⟩ := Prod.mk.inj (Option.some.inj (hRun.value_eq.symm.trans hValue))
  refine ⟨path, hRun, hValue, hRun.path.position_lt hStands.position_lt, hRun.path.pairwise, ?_, ?_⟩
  · exact List.forall_mem_cons.mpr ⟨h.depth_le, hDepth⟩
  · intro list hList
    have hClosed := hOk list hList
    exact ⟨hClosed.depth_eq, hClosed.at_close⟩

/-- One more call leaves a reader that has come from the first one by calls. -/
theorem LeftBy.next (h : LeftBy limit (TokenReader.start limit.value tokens) r)
    (hCuttable : Cuttable tokens) :
    LeftBy limit (TokenReader.start limit.value tokens) r.next.2 := by
  obtain ⟨path, hRuns⟩ := h.callRuns hCuttable
  refine ⟨(h.call_eq hCuttable).2, ?_, hRuns.depth_le _ hRuns.run.path.end_mem⟩
  rw [← h.setting_eq]
  unfold TokenReader.next
  split <;> rfl

/-- Any number of calls. -/
theorem LeftBy.attempted (h : LeftBy limit (TokenReader.start limit.value tokens) r)
    (hCuttable : Cuttable tokens) (n : Nat) :
    LeftBy limit (TokenReader.start limit.value tokens) (r.attempted n) := by
  induction n with
  | zero => exact h
  | succ n ih => exact ih.next hCuttable

end

/-- Whatever tokens a reader is made of, and however many calls there have been: the next call ends.
It leaves the cursor at one of the tokens, and on its way it does not go back and does not have more
groups open than may be. After a success the cursor stands at a mark of the end, with as many groups
open as before. -/
theorem calls_stop {tokens : List Token} (hCuttable : Cuttable tokens) (limit : DepthLimit) :
    let kept := keptTokens tokens
    let first := TokenReader.start limit.value tokens
    MovesOn kept limit ∧ cursorOf first first = ⟨0, 0⟩ ∧
      ∀ n, ∃ path, CallRuns kept limit (cursorOf first (first.attempted n)) path
        (first.attempted n).next.1 (cursorOf first (first.attempted (n + 1))) := by
  intro kept first
  refine ⟨movesOn (marked_keptTokens tokens) hCuttable.keptTokens limit, ?_, fun n => ?_⟩
  · exact congrArg (Cursor.mk · 0) (Nat.sub_self _)
  · exact ((LeftBy.start limit tokens).attempted hCuttable n).callRuns hCuttable

/-- A group that is not closed, with a mark of the end inside of it and none at the end. -/
def unclosed : List Token :=
  [⟨.pseudoClass, ":not".toList, 0⟩, ⟨.parenthesesStart, "(".toList, 4⟩,
    ⟨.pseudoClass, ":hover".toList, 5⟩, ⟨.classSelector, ".a".toList, 11⟩, ⟨.eof, "é".toList, 13⟩,
    ⟨.parenthesesEnd, ")".toList, 15⟩]

/-- The first call fails inside of the group, and the second one goes on from there, up to the mark.
-/
theorem calls_stop_of_unclosed :
    Cuttable unclosed ∧ ∃ path, CallRuns (keptTokens unclosed) ⟨1, 1, Nat.le_refl 1⟩ ⟨3, 1⟩ path
      (.ok [.single ⟨11, [.class "a".toList]⟩]) ⟨4, 1⟩ := by
  have hCuttable : Cuttable unclosed := by
    intro token hToken hCut
    simp only [unclosed, List.mem_cons, List.not_mem_nil, or_false] at hToken
    rcases hToken with rfl | rfl | rfl | rfl | rfl | rfl
    all_goals first
      | exact ⟨_, _, rfl, rfl⟩
      | cases hCut
  obtain ⟨-, -, hCalls⟩ := calls_stop hCuttable ⟨1, 1, Nat.le_refl 1⟩
  obtain ⟨path, hRuns⟩ := hCalls 1
  have hPlace : cursorOf (TokenReader.start 1 unclosed) ((TokenReader.start 1 unclosed).attempted 1) =
      ⟨3, 1⟩ := by decide +kernel
  rw [hPlace] at hRuns
  have hValue : call ⟨1, 1, Nat.le_refl 1⟩ (keptTokens unclosed) ⟨3, 1⟩ =
      some (.ok [.single ⟨11, [.class "a".toList]⟩], ⟨4, 1⟩) := rfl
  obtain ⟨hResult, hBehind⟩ := Prod.mk.inj (Option.some.inj (hRuns.value_eq.symm.trans hValue))
  rw [hResult, hBehind] at hRuns
  exact ⟨hCuttable, path, hRuns⟩

end SelectorXPath.Checked
