import Mathlib.Data.List.Chain
import SelectorXPath.Proofs.Positions
import SelectorXPath.Proofs.Token.Forms
import SelectorXPath.Token.Scan

/-! What one step of a scan does, how a scan that succeeds is made of steps, and what such a scan
says about its tokens. Each of them by itself has been recognised by some mode; the mark of the end
is the only token of which this is not so, and it stands behind all others. Of two neighbours it
says only this: the inside of a string stands behind the opening mark of a string or behind more of
the inside. -/

namespace SelectorXPath

open SelectorXPath.Text

namespace Scan

variable {s next : Scan} {token : Token}

/-- A token closes the innermost mode, opens one inside of it, or leaves the modes as they are. -/
theorem shift_eq_ok_iff {top : Frame} {below : List Frame} :
    s.shift token = .ok (top, below) ↔
      (s.top.mode.isClosedBy token.kind = true ∧ s.below = top :: below) ∨
      (s.top.mode.isClosedBy token.kind = false ∧
        ((∃ mode, s.top.mode.opened? token.kind = some mode ∧
            top = ⟨mode, token.offset⟩ ∧ below = s.top :: s.below) ∨
          (s.top.mode.opened? token.kind = none ∧ top = s.top ∧ below = s.below))) := by
  rw [shift]
  cases s.top.mode.isClosedBy token.kind with
  | true => cases s.below <;> simp
  | false => cases s.top.mode.opened? token.kind <;> simp [eq_comm]

/-- The mode below comes back to the top. -/
theorem shift_of_closed {top : Frame} {below : List Frame}
    (hClosed : s.top.mode.isClosedBy token.kind = true) (hBelow : s.below = top :: below) :
    s.shift token = .ok (top, below) :=
  shift_eq_ok_iff.mpr (Or.inl ⟨hClosed, hBelow⟩)

/-- The new mode knows the offset of the token that opens it. -/
theorem shift_of_opened {mode : Mode} (hOpen : s.top.mode.isClosedBy token.kind = false)
    (hMode : s.top.mode.opened? token.kind = some mode) :
    s.shift token = .ok (⟨mode, token.offset⟩, s.top :: s.below) :=
  shift_eq_ok_iff.mpr (Or.inr ⟨hOpen, Or.inl ⟨mode, hMode, rfl, rfl⟩⟩)

/-- A token that neither opens nor closes a mode leaves the stack as it is. -/
theorem shift_of_kept (hOpen : s.top.mode.isClosedBy token.kind = false)
    (hNone : s.top.mode.opened? token.kind = none) : s.shift token = .ok (s.top, s.below) :=
  shift_eq_ok_iff.mpr (Or.inr ⟨hOpen, Or.inr ⟨hNone, rfl, rfl⟩⟩)

/-- Everything that a step which succeeds says about its token and about the scan behind it. -/
theorem step_eq_some_ok (h : s.step = some (.ok (token, next))) :
    ∃ c t length, s.rest = c :: t ∧ s.top.mode.recognize? (c :: t) = some (token.kind, length) ∧
      token = ⟨token.kind, c :: t.take (length - 1), s.offset⟩ ∧
      s.shift token = .ok (next.top, next.below) ∧ next.rest = t.drop (length - 1) ∧
      next.offset = token.stop := by
  unfold step at h
  split at h
  · cases h
  · rename_i c t hRest
    obtain h := Option.some.inj h
    unfold take at h
    split at h
    · cases h
    · rename_i kind length hKind
      dsimp only at h
      split at h
      · cases h
      · rename_i hShift
        cases h
        exact ⟨c, t, length, hRest, hKind, rfl, hShift, rfl, rfl⟩

/-- There is a step as long as the source is not used up. -/
theorem step_eq_none_iff : s.step = none ↔ s.rest = [] := by
  rw [step]
  cases s.rest <;> simp

/-- A scan that succeeds is at the end, or it takes a token and goes on. -/
theorem run_eq_ok {tokens : List Token} (h : s.run = .ok tokens) :
    s.step = none ∧ s.finish = .ok tokens ∨
      ∃ token next more, s.step = some (.ok (token, next)) ∧ next.run = .ok more ∧
        tokens = token :: more := by
  rw [run] at h
  split at h
  · rename_i hStep
    exact Or.inl ⟨hStep, h⟩
  · cases h
  · rename_i token next hStep
    cases hMore : next.run with
    | error e =>
        rw [hMore] at h
        cases h
    | ok more =>
        rw [hMore] at h
        cases h
        exact Or.inr ⟨token, next, more, hStep, hMore, rfl⟩

/-- A scan may end where only the outermost mode is open. -/
theorem finish_eq_ok_iff {tokens : List Token} :
    s.finish = .ok tokens ↔ s.top.mode = .selector ∧ tokens = [⟨.eof, [], s.offset⟩] := by
  rw [finish]
  split
  · rename_i hMode
    simp [hMode, eq_comm]
  · rename_i hMode
    simp [hMode]

end Scan

/-- The inside of a string. -/
def Token.Kind.isQuoted : Token.Kind → Bool
  | .stringChars | .escapedChar => true
  | _ => false

/-- The kinds of token that positions are written with. -/
def Token.Kind.isPositional : Token.Kind → Bool
  | .number | .identifier | .combinator | .whitespace => true
  | _ => false

namespace Mode.Form

open Token

variable {mode : Mode} {c : Char} {t : Text} {kind : Kind} {n : Nat}

/-- No mode finds the mark of the end in a text. -/
theorem kind_ne_eof (h : mode.Form t kind n) : kind ≠ .eof := by
  rintro rfl
  have hKind := h.mem_kinds
  cases mode <;> simp [kinds, selectorKinds] at hKind

/-- The names of classes and of ids have a character behind the sign in front. -/
theorem one_lt_of_name (h : mode.Form t kind n)
    (hKind : kind = .classSelector ∨ kind = .idSelector) : 1 < n ∧ n ≤ t.length := by
  cases h with
  | @named kind rest hMode hNamed hText hLength =>
      have hSign : kind.sign.length = 1 := by rcases hKind with rfl | rfl <;> rfl
      have hInside := nameLength_le rest
      rw [hText, List.length_append]
      omega
  | spelled hMode hSign => rcases hKind with rfl | rfl <;> cases hSign
  | _ => rcases hKind with hKind | hKind <;> cases hKind

/-- A token begins with a character that writes no positions, unless its kind may, or it is a piece
of a comment or of a string. -/
theorem isPositional (h : mode.Form (c :: t) kind n) (hChar : AnPlusB.isPositionalChar c = true) :
    kind.isPositional = true ∨ kind.isComment = true ∨ kind.isQuoted = true := by
  cases h with
  | blanks | number => exact Or.inl rfl
  | escaped | chars => exact Or.inr (Or.inr rfl)
  | comment => exact Or.inr (Or.inl rfl)
  | named hMode hNamed hText =>
      cases kind with
      | identifier => exact Or.inl rfl
      | classSelector | idSelector | pseudoClass | pseudoElement =>
          obtain ⟨rfl, -⟩ := List.cons.inj hText
          cases hChar
      | _ => cases hNamed
  | @spelled kind sign hMode hSign hText =>
      cases kind with
      | combinator => exact Or.inl rfl
      | commentStart | commentEnd => exact Or.inr (Or.inl rfl)
      | attributeOperator =>
          simp only [Kind.spellings, List.mem_cons, List.not_mem_nil, or_false] at hSign
          rcases hSign with rfl | rfl | rfl | rfl | rfl | rfl <;>
            obtain rfl := (List.cons_prefix_cons.mp hText).1 <;> cases hChar
      | stringStart mark | stringEnd mark =>
          obtain rfl := List.mem_singleton.mp hSign
          obtain rfl := (List.cons_prefix_cons.mp hText).1
          cases mark <;> cases hChar
      | universal | namespaceSeparator | separator | attributeStart | attributeEnd
      | parenthesesStart | parenthesesEnd =>
          obtain rfl := List.mem_singleton.mp hSign
          obtain rfl := (List.cons_prefix_cons.mp hText).1
          cases hChar
      | _ => cases hSign

/-- Only in a string there is the inside of one. -/
theorem exists_mark (h : mode.Form t kind n) (hQuoted : kind.isQuoted = true) :
    ∃ mark, mode = .string mark := by
  have hKind := h.mem_kinds
  cases mode with
  | string mark => exact ⟨mark, rfl⟩
  | selector | argument | «attribute» | comment =>
      cases kind with
      | stringChars | escapedChar => simp [kinds, selectorKinds] at hKind
      | _ => cases hQuoted

end Mode.Form

/-- Some mode recognises the token at the start of some text. -/
def Token.Recognized (token : Token) : Prop :=
  ∃ (mode : Mode) (c : Char) (t : Text) (length : Nat),
    mode.recognize? (c :: t) = some (token.kind, length) ∧ token.text = c :: t.take (length - 1)

namespace Token.Recognized

/-- A token that was recognised is no mark of the end. -/
theorem kind_ne_eof {token : Token} (h : token.Recognized) : token.kind ≠ .eof := by
  obtain ⟨mode, c, t, length, hRead, -⟩ := h
  exact (Mode.form_of_recognize? hRead).kind_ne_eof

theorem text_ne_nil {token : Token} (h : token.Recognized) : token.text ≠ [] := by
  obtain ⟨mode, c, t, length, -, hText⟩ := h
  simp [hText]

/-- The name of a class or of an id is never empty. -/
theorem name_ne_nil {token : Token} (h : token.Recognized)
    (hKind : token.kind = .classSelector ∨ token.kind = .idSelector) :
    token.text.drop 1 ≠ [] := by
  obtain ⟨mode, c, t, length, hRead, hText⟩ := h
  obtain ⟨hMore, hInside⟩ := (Mode.form_of_recognize? hRead).one_lt_of_name hKind
  rw [List.length_cons] at hInside
  rw [hText, List.drop_succ_cons, List.drop_zero]
  refine List.ne_nil_of_length_pos ?_
  rw [List.length_take]
  omega

/-- A token that is written with the characters of positions is of a kind that may write them. -/
theorem isPositional {token : Token} (h : token.Recognized)
    (hComment : token.kind.isComment = false) (hQuoted : token.kind.isQuoted = false)
    (hText : ∀ c ∈ token.text, AnPlusB.isPositionalChar c = true) :
    token.kind.isPositional = true := by
  obtain ⟨mode, c, t, length, hRead, hShape⟩ := h
  have hFirst := hText c (by simp [hShape])
  have hKinds := (Mode.form_of_recognize? hRead).isPositional hFirst
  simpa [hComment, hQuoted] using hKinds

end Token.Recognized

/-- Behind a token of the kind `before` the inside of a string may stand. -/
def Token.Kind.admitsQuoted : Token.Kind → Bool
  | .stringStart _ | .stringChars | .escapedChar => true
  | _ => false

/-- Behind what positions are written with there is no inside of a string. -/
theorem Token.Kind.admitsQuoted_of_isPositional {kind : Token.Kind}
    (h : kind.isPositional = true) : kind.admitsQuoted = false := by
  cases kind with
  | number | identifier | combinator | whitespace => rfl
  | _ => cases h

/-- A string that is not closed goes on with more of its inside. -/
theorem Mode.admitsQuoted_of_recognize? {mark : QuoteMark} {c : Char} {t : Text}
    {kind : Token.Kind} {length : Nat}
    (h : (Mode.string mark).recognize? (c :: t) = some (kind, length))
    (hOpen : (Mode.string mark).isClosedBy kind = false) : kind.admitsQuoted = true := by
  have hKind := (Mode.form_of_recognize? h).mem_kinds
  simp only [Mode.kinds, List.mem_cons, List.not_mem_nil, or_false] at hKind
  rcases hKind with rfl | rfl | rfl
  · cases mark <;> cases hOpen
  · rfl
  · rfl

/-- Only the opening mark opens a string. -/
theorem Mode.admitsQuoted_of_opened? {mode : Mode} {mark : QuoteMark} {kind : Token.Kind}
    (h : mode.opened? kind = some (.string mark)) : kind.admitsQuoted = true := by
  cases kind with
  | stringStart => rfl
  | _ => cases mode <;> cases h

/-- Tokens as a scan leaves them behind, without comments and without the mark of the end. -/
structure Scanned (ts : List Token) : Prop where
  recognized : ∀ t ∈ ts, t.Recognized
  visible : ∀ t ∈ ts, t.kind.isComment = false
  chained : ts.IsChain fun a b => b.kind.isQuoted = true → a.kind.admitsQuoted = true

/-- Tokens from the middle of a scan are still what a scan leaves behind. -/
theorem Scanned.part {ts us : List Token} (h : Scanned us) (hPart : ts <:+: us) : Scanned ts where
  recognized t ht := h.recognized t (hPart.subset ht)
  visible t ht := h.visible t (hPart.subset ht)
  chained := List.IsChain.infix h.chained hPart

/-- One more token in front has to be recognised, and must not stand where the inside of a string
cannot follow. -/
theorem Scanned.cons {t : Token} {ts : List Token} (h : Scanned ts) (hRecognized : t.Recognized)
    (hVisible : t.kind.isComment = false)
    (hNext : ∀ u ∈ ts.head?, u.kind.isQuoted = true → t.kind.admitsQuoted = true) :
    Scanned (t :: ts) where
  recognized := List.forall_mem_cons.mpr ⟨hRecognized, h.recognized⟩
  visible := List.forall_mem_cons.mpr ⟨hVisible, h.visible⟩
  chained := List.isChain_cons.mpr ⟨hNext, h.chained⟩

/-- Behind a token that admits no inside of a string, a text that writes positions is cut into
tokens of their kinds. -/
theorem Scanned.isPositional {start : Token} {ts : List Token} {positions : AnPlusB}
    (h : Scanned (start :: ts)) (hStart : start.kind.admitsQuoted = false)
    (hRead : AnPlusB.read? (ts.flatMap Token.text) = some positions) :
    ∀ t ∈ ts, t.kind.isPositional = true := by
  have hChars := AnPlusB.isPositionalChar_of_read? hRead
  clear hRead
  induction ts generalizing start with
  | nil => simp
  | cons t ts ih =>
      have hQuoted : t.kind.isQuoted = false := by
        have := (List.isChain_cons_cons.mp h.chained).1
        simpa [hStart] using this
      have hKind : t.kind.isPositional = true :=
        (h.recognized t (by simp)).isPositional (h.visible t (by simp)) hQuoted
          fun c hc => hChars c (by simp [hc])
      intro x hx
      rcases List.mem_cons.mp hx with rfl | hx
      · exact hKind
      · have hPart := h.part (List.suffix_cons start (t :: ts)).isInfix
        have hAdmits := Token.Kind.admitsQuoted_of_isPositional hKind
        refine ih hPart hAdmits (fun c hc => hChars c ?_) x hx
        rw [List.flatMap_cons]
        exact List.mem_append_right _ hc

namespace Scan

/-- No mode but the innermost reads the inside of a string. -/
def StringsOnTop (s : Scan) : Prop :=
  ∀ frame ∈ s.below, ∀ mark, frame.mode ≠ .string mark

/-- At the start only the outermost mode is open. -/
theorem start_stringsOnTop (source : Text) : (start source).StringsOnTop := by
  simp [StringsOnTop, start]

/-- The text that a step takes is recognised by the mode on top. -/
theorem recognized_of_step {s s' : Scan} {token : Token}
    (h : s.step = some (.ok (token, s'))) : token.Recognized := by
  obtain ⟨c, t, length, -, hKind, hToken, -⟩ := step_eq_some_ok h
  exact ⟨s.top.mode, c, t, length, hKind, by rw [hToken]⟩

/-- One token keeps strings on top, and it opens a string or is the inside of one if the next token
may be the inside of one. -/
theorem stringsOnTop_of_step {s s' : Scan} {token : Token} (hTop : s.StringsOnTop)
    (h : s.step = some (.ok (token, s'))) :
    s'.StringsOnTop ∧ ∀ mark, s'.top.mode = .string mark → token.kind.admitsQuoted = true := by
  obtain ⟨c, t, length, -, hKind, -, hShift, -⟩ := step_eq_some_ok h
  obtain ⟨-, hBelow⟩ | ⟨hOpen, ⟨mode, hOpened, hTop', hBelow⟩ | ⟨-, hTop', hBelow⟩⟩ :=
    shift_eq_ok_iff.mp hShift
  · rw [StringsOnTop, hBelow, List.forall_mem_cons] at hTop
    exact ⟨hTop.2, fun mark hMode => absurd hMode (hTop.1 mark)⟩
  · constructor
    · rw [StringsOnTop, hBelow, List.forall_mem_cons]
      refine ⟨fun mark hMode => ?_, hTop⟩
      rw [hMode] at hOpened
      cases hOpened
    · intro mark hMode
      rw [hTop'] at hMode
      cases hMode
      exact Mode.admitsQuoted_of_opened? hOpened
  · constructor
    · rw [StringsOnTop, hBelow]
      exact hTop
    · intro mark hMode
      rw [← hTop', hMode] at hKind hOpen
      exact Mode.admitsQuoted_of_recognize? hKind hOpen

/-- A scan that succeeds leaves scanned tokens behind, and the mark of the end. -/
theorem scanned_of_run {s : Scan} {tokens : List Token} (hTop : s.StringsOnTop)
    (h : s.run = .ok tokens) :
    ∃ front offset, tokens = front ++ [⟨.eof, [], offset⟩] ∧
      Scanned (front.filter fun t => !t.kind.isComment) ∧
      ∀ t ∈ (front.filter fun t => !t.kind.isComment).head?,
        t.kind.isQuoted = true → ∃ mark, s.top.mode = .string mark := by
  obtain ⟨-, hFinish⟩ | ⟨token, next, more, hStep, hMore, rfl⟩ := run_eq_ok h
  · obtain ⟨-, rfl⟩ := finish_eq_ok_iff.mp hFinish
    exact ⟨[], s.offset, rfl, ⟨by simp, by simp, by simp⟩, by simp⟩
  · obtain ⟨hNext, hAdmits⟩ := stringsOnTop_of_step hTop hStep
    obtain ⟨front, offset, rfl, hFront, hHead⟩ := scanned_of_run hNext hMore
    have hAfter : ∀ t ∈ (front.filter fun t => !t.kind.isComment).head?,
        t.kind.isQuoted = true → token.kind.admitsQuoted = true := by
      intro t ht hQuoted
      obtain ⟨mark, hMode⟩ := hHead t ht hQuoted
      exact hAdmits mark hMode
    refine ⟨token :: front, offset, rfl, ?_⟩
    cases hComment : token.kind.isComment with
    | true =>
        rw [List.filter_cons_of_neg (by simp [hComment])]
        refine ⟨hFront, fun t ht hQuoted => ?_⟩
        have hAdmitted := hAfter t ht hQuoted
        cases hKind : token.kind with
        | commentStart | commentText | commentEnd =>
            rw [hKind] at hAdmitted
            cases hAdmitted
        | _ =>
            rw [hKind] at hComment
            cases hComment
    | false =>
        rw [List.filter_cons_of_pos (by simp [hComment])]
        refine ⟨hFront.cons (recognized_of_step hStep) hComment hAfter, fun t ht hQuoted => ?_⟩
        obtain rfl : token = t := by simpa using ht
        obtain ⟨c, t, length, -, hKind, -⟩ := step_eq_some_ok hStep
        exact (Mode.form_of_recognize? hKind).exists_mark hQuoted
termination_by s.rest.length
decreasing_by exact length_rest_of_step hStep

end Scan

end SelectorXPath
